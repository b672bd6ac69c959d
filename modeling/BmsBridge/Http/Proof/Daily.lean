import BmsBridge.History.Proof.Month
import BmsBridge.Http.Daily

/-! The requests for the daily rows of a month: those for a year and a month of four and two digits
are answered with exactly that month, those for none with the current one. -/

namespace BmsBridge

open Calendar

/-- A time from 1970 on, as far as the last year of four digits. -/
structure Current (now : Int) : Prop where
  low : 0 ≤ now
  high : now < 2932532 * 86400000000000

variable {now : Int} {params : DailyParams}

/-- What is passed on is positive, and has room for its digits if what was asked for does. -/
theorem yearMonth_bounds (hNow : Current now) (hYear : params.year ≤ 9998) (hMonth : params.month ≤ 99) :
    (0 < (params.yearMonth now).1 ∧ (params.yearMonth now).1 ≤ 9998) ∧
      (0 < (params.yearMonth now).2 ∧ (params.yearMonth now).2 ≤ 99) := by
  obtain ⟨hLow, hHigh⟩ := hNow
  rw [DailyParams.yearMonth]
  split
  · have hFrom : 0 ≤ now.tdiv 1000000000 / 86400 := by
      rw [Int.tdiv_eq_ediv_of_nonneg hLow]
      omega
    have hTo : now.tdiv 1000000000 / 86400 ≤ 2932531 := by
      rw [Int.tdiv_eq_ediv_of_nonneg hLow]
      omega
    have hPrintable : (ofDays (now.tdiv 1000000000 / 86400)).Printable :=
      ofDays_printable (by omega) (by omega)
    obtain ⟨hFirst, hLast⟩ := hPrintable.month
    exact ⟨ofDays_year hFrom hTo, by simp only; omega⟩
  · simp only
    omega

namespace HttpServer

/-- The answer has the rows of the month that was passed on, and no others, in the order of their
dates. -/
theorem handleDaily_exact (s : HttpServer) (hDates : s.history.HasDates) (hNow : Current now)
    (hYear : params.year ≤ 9998) (hMonth : params.month ≤ 99) :
    ∃ reply, s.handleDaily params now = some reply ∧
      reply.batteryId = params.battery ∧ (reply.year, reply.month) = params.yearMonth now ∧
      reply.data.Perm ((s.history.monthRows params.battery reply.year reply.month).map
        fun row => (s.history.dailyEnergy row).json) ∧
      reply.data.Pairwise fun a b => a.date ≤ b.date := by
  obtain ⟨⟨hYearLow, hYearHigh⟩, hMonthLow, hMonthHigh⟩ := yearMonth_bounds hNow hYear hMonth
  have hRange : HasNext (params.yearMonth now).1 (params.yearMonth now).2 :=
    ⟨by omega, fun _ => by omega⟩
  obtain ⟨found, hFound, hExact⟩ := History.getDailyEnergy_of_placed hDates params.battery hYearLow
    hMonthLow hRange fun _ _ _ => not_misplaced_of_room hYearHigh hMonthHigh
  rw [handleDaily, hFound, Option.map_some]
  refine ⟨_, rfl, rfl, rfl, ?_, ?_⟩
  · have hRows := hExact.rows.map DailyEnergy.json
    rw [List.map_map] at hRows
    exact hRows
  · rw [List.pairwise_map]
    exact hExact.ascending

end HttpServer

end BmsBridge
