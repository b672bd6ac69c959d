import BmsBridge.History.Proof.Append
import BmsBridge.Lib.Paging

/-! The range queries read pages: of all rows of a battery, or of the newest one of each bucket. -/

namespace BmsBridge

open Paging

@[simp] theorem toMs_ofMs (tsMs : Int) : toMs (ofMs tsMs) = tsMs :=
  Int.mul_tdiv_cancel tsMs (by decide)

namespace History

def samplesOf (h : History) (batId : Int) : List (Int × SampleRow) :=
  h.db.samples.rows.filter fun row => row.2.batteryId = batId

/-- Rows of one bucket, where there are buckets. -/
def SameBucket (fromMs stepMs : Int) (a b : Int × SampleRow) : Prop :=
  0 < stepMs ∧ (a.2.tsMs - fromMs).tdiv stepMs = (b.2.tsMs - fromMs).tdiv stepMs

variable {h : History} (sql : OrderBy (Int × SampleRow)) {batId fromMs stopMs lim stepMs : Int}

theorem selectSamples_eq : h.selectSamples sql batId fromMs stopMs lim stepMs =
    OrderBy.limit (if 0 < lim then lim else -1) (sql.sort (fun row => -row.2.tsMs)
      (if 0 < stepMs then
        sql.firsts (fun row => (row.2.tsMs - fromMs).tdiv stepMs) (fun row => -row.2.tsMs)
          (window (fun row => row.2.tsMs) fromMs stopMs (h.samplesOf batId))
      else window (fun row => row.2.tsMs) fromMs stopMs (h.samplesOf batId))) := by
  have hWindow : h.db.samples.rows.filter (fun row =>
      row.2.batteryId = batId ∧ fromMs ≤ row.2.tsMs ∧ row.2.tsMs < stopMs) =
      window (fun row => row.2.tsMs) fromMs stopMs (h.samplesOf batId) := by
    rw [window, samplesOf, List.filter_filter]
    refine List.filter_congr fun row _ => ?_
    rw [Bool.eq_iff_iff]
    simp only [Bool.and_eq_true, decide_eq_true_eq]
    exact and_comm
  rw [selectSamples, hWindow]

theorem mem_selectSamples {row : Int × SampleRow}
    (hRow : row ∈ h.selectSamples sql batId fromMs stopMs lim stepMs) :
    row ∈ h.samplesOf batId ∧ fromMs ≤ row.2.tsMs ∧ row.2.tsMs < stopMs := by
  rw [selectSamples_eq] at hRow
  have hChosen := sql.mem_sort.mp (OrderBy.mem_of_mem_limit hRow)
  have hWindow : row ∈ window (fun row => row.2.tsMs) fromMs stopMs (h.samplesOf batId) := by
    split at hChosen
    · exact (List.mem_filter.mp hChosen).1
    · exact hChosen
  exact mem_window.mp hWindow

theorem isPage_selectSamples (fromMs stopMs stepMs : Int) (hLim : 0 < lim)
    (hDistinct : (h.samplesOf batId).Pairwise fun a b => a.2.tsMs ≠ b.2.tsMs) :
    IsPage (fun row => row.2.tsMs) (SameBucket fromMs stepMs) fromMs stopMs lim.toNat
      (h.samplesOf batId) (h.selectSamples sql batId fromMs stopMs lim stepMs) := by
  rw [selectSamples_eq, if_pos hLim]
  split
  · rename_i hStep
    refine (isPage_thinned sql hDistinct (fun row => (row.2.tsMs - fromMs).tdiv stepMs) hLim).imp ?_
    exact fun a b h => ⟨hStep, h⟩
  · refine (isPage_plain sql hDistinct hLim).imp ?_
    exact fun a b h => h.elim

/-- The probe for older rows. -/
theorem selectSamples_one_eq_nil : h.selectSamples sql batId fromMs stopMs 1 0 = [] ↔
    ∀ row ∈ h.samplesOf batId, fromMs ≤ row.2.tsMs → stopMs ≤ row.2.tsMs := by
  rw [selectSamples_eq, if_pos (by decide), if_neg (by decide), OrderBy.limit, if_pos (by decide),
    List.take_eq_nil_iff, sql.sort_eq_nil, window, List.filter_eq_nil_iff]
  simp

/-- A window below the time of a new sample stays as it is. -/
theorem window_append (h : History) (batId fromMs : Int) (fails : AppendCall → Bool)
    (name : String) {ts : Int} (now : Int) (cells : JkCellInfo) (pack : JkPackInfo) (hNewer : stopMs ≤ toMs ts) :
    window (fun row => row.2.tsMs) fromMs stopMs
        ((h.append fails name ts now cells pack).samplesOf batId) =
      window (fun row => row.2.tsMs) fromMs stopMs (h.samplesOf batId) := by
  rcases h.append_tables fails name ts now cells pack with ⟨hSamples, -⟩ | ⟨newId, hSamples, -⟩
  · rw [samplesOf, hSamples, ← samplesOf]
  · have hNew : window (fun row => row.2.tsMs) fromMs stopMs
        ([(h.db.samples.seq + 1, SampleRow.ofSample newId (toMs ts) cells pack)].filter fun row =>
          row.2.batteryId = batId) = [] := by
      rw [window, List.filter_eq_nil_iff]
      intro row hRow
      rw [List.mem_singleton.mp (List.mem_filter.mp hRow).1, decide_eq_true_eq]
      exact fun h => Int.not_lt.mpr hNewer h.2
    rw [samplesOf, hSamples, Table.rows_insert, List.filter_append, window, List.filter_append,
      ← window, ← window, hNew, List.append_nil, ← samplesOf]

/-- Rows outside of the window do not matter. -/
theorem selectSamples_congr {h' : History}
    (hSame : window (fun row => row.2.tsMs) fromMs stopMs (h'.samplesOf batId) =
      window (fun row => row.2.tsMs) fromMs stopMs (h.samplesOf batId)) :
    h'.selectSamples sql batId fromMs stopMs lim stepMs =
      h.selectSamples sql batId fromMs stopMs lim stepMs := by
  rw [selectSamples_eq, selectSamples_eq, hSame]

end History

end BmsBridge
