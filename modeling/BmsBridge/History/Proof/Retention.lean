import BmsBridge.History.Proof.Daily

/-! What an aggregation purges: no sample of the last eight days, and older ones as soon as any day is
pending, whether their own days could be aggregated or not. -/

namespace BmsBridge

namespace History

variable (sql : OrderBy (Int × SampleRow)) (h : History) (fails : AggregateCall → Bool) (now : Int)

/-- A sample of a battery from the first of January 1970. -/
def oldSample : History where
  db := { samples := (∅ : Table SampleRow).insert (.ofSample 1 0 {} {}) }

/-- The time twenty days later. -/
def twentyDays : Int := 20 * 86400000000000

/-! ### Failures -/

/-- No sample is older than eight days after an aggregation without failures, if and only if there was
none before or some day was pending. -/
theorem retention_iff : (∀ row ∈ (h.aggregatePending sql (fun _ => false) now).db.samples.rows,
      now / 86400000000000 * 86400000 - 8 * 86400000 ≤ row.2.tsMs) ↔
    (∀ row ∈ h.db.samples.rows, now / 86400000000000 * 86400000 - 8 * 86400000 ≤ row.2.tsMs) ∨
      ∃ row ∈ h.db.samples.rows, row.2.tsMs < todayMs now ∧
        ∃ date, sqliteDate (row.2.tsMs.tdiv 1000) = some date ∧
          ∀ daily ∈ h.db.dailyEnergy.rows,
            ¬(daily.2.batteryId = row.2.batteryId ∧ daily.2.date = date) := by
  have hNoDaily (day : PendingDay) : h.dailyOf day = [] ↔
      ∀ daily ∈ h.db.dailyEnergy.rows, ¬(daily.2.batteryId = day.1 ∧ daily.2.date = day.2) := by
    simp [dailyOf_eq_nil]
  by_cases hNone : h.findPending (todayMs now) = []
  · have hPending : ¬∃ row ∈ h.db.samples.rows, row.2.tsMs < todayMs now ∧
        ∃ date, sqliteDate (row.2.tsMs.tdiv 1000) = some date ∧
          ∀ daily ∈ h.db.dailyEnergy.rows,
            ¬(daily.2.batteryId = row.2.batteryId ∧ daily.2.date = date) := by
      rintro ⟨row, hRow, hPast, date, hDate, hDaily⟩
      have hMem := mem_findPending.mpr
        ⟨row, hRow, hPast, rfl, hDate, (hNoDaily (row.2.batteryId, date)).mpr hDaily⟩
      rw [hNone] at hMem
      cases hMem
    rw [aggregatePending_eq rfl, if_pos hNone, or_iff_left hPending]
  · obtain ⟨day, hDay⟩ := List.exists_mem_of_ne_nil _ hNone
    obtain ⟨row, hRow, hPast, hBattery, hDate, hDaily⟩ := mem_findPending.mp hDay
    have hSamples : (h.aggregatePending sql (fun _ => false) now).db.samples.rows =
        h.db.samples.rows.filter fun row => !(row.2.tsMs < purgeMs now) := by
      have hPurge (h' : History) : h'.purge (fun _ => false) (purgeMs now) =
          { h' with db := h'.db.deleteSamples fun s => s.tsMs < purgeMs now } := rfl
      rw [aggregatePending_eq rfl, if_neg hNone, hPurge, Database.deleteSamples, Table.rows_keep,
        loop_samples]
    refine iff_of_true ?_ (.inr ⟨row, hRow, hPast, day.2, hDate, ?_⟩)
    · intro row hRow
      rw [hSamples, List.mem_filter, Bool.not_eq_true', decide_eq_false_iff_not, purgeMs] at hRow
      have hMidnight := midnight_le_todayMs now
      omega
    · rw [hBattery]
      exact (hNoDaily day).mp hDaily

/-- A sample whose day has its daily row stays, however old it gets. -/
theorem old_sample_stays : ¬∀ (sql : OrderBy (Int × SampleRow)) (h : History) (now : Int),
    ∀ row ∈ (h.aggregatePending sql (fun _ => false) now).db.samples.rows,
      now / 86400000000000 * 86400000 - 8 * 86400000 ≤ row.2.tsMs := by
  intro h
  have hBound := h .stable (oldSample.insertDaily (1, "1970-01-01") {}) twentyDays
    (1, .ofSample 1 0 {} {}) (by decide +kernel)
  exact absurd hBound (by decide)

end History

end BmsBridge
