import BmsBridge.Lib.Drain
import BmsBridge.Pylontech.Proof.Frame
import BmsBridge.Pylontech.Responders

/-! The receive loops on frames as the builders put them on the wire, and the frame that every
responder builds. -/

namespace BmsBridge

open Words

theorem drain_buildPylontech {σ : Type} (handle : σ → PylontechFrame → σ) (s : σ)
    (f : PylontechFrame) (tail : List UInt8) (hFits : (buildPylontech f).length < 2147483648) :
    Drain.drain (tryParsePylontech ·) handle s (buildPylontech f ++ tail) =
      Drain.drain (tryParsePylontech ·) handle (handle s f) tail := by
  have hParse := tryParse_buildPylontech f tail {}
  rw [castInt_of_lt hFits] at hParse
  have hLen := length_buildPylontech f
  have hNe : buildPylontech f ++ tail ≠ [] := by
    apply List.ne_nil_of_length_pos
    rw [List.length_append]
    omega
  rw [Drain.drain_frame hNe (by simp only [hParse]; omega)]
  simp only [hParse, Int.toNat_natCast, List.drop_left]

/-- A frame of up to 1024 INFO bytes is parsed whole. -/
theorem tryParse_built (f : PylontechFrame) (hInfo : f.info.length ≤ 1024) :
    tryParsePylontech (buildPylontech f) = (((buildPylontech f).length : Int), f) := by
  have hParse := tryParse_buildPylontech f [] {}
  rw [List.append_nil] at hParse
  rw [hParse, castInt_of_lt (by rw [length_buildPylontech]; omega)]

theorem drain_flatMap_buildPylontech {σ : Type} (handle : σ → PylontechFrame → σ) (s : σ)
    (fs : List PylontechFrame) (hFits : ∀ f ∈ fs, (buildPylontech f).length < 2147483648) :
    Drain.drain (tryParsePylontech ·) handle s (fs.flatMap buildPylontech) =
      (fs.foldl handle s, []) := by
  induction fs generalizing s with
  | nil => exact Drain.drain_nil
  | cons f fs ih =>
    obtain ⟨hHead, hTail⟩ := List.forall_mem_cons.mp hFits
    rw [List.flatMap_cons, drain_buildPylontech handle s f _ hHead, ih _ hTail, List.foldl_cons]

/-- An analog response that is built at all is an `ok_response` frame around its record. -/
theorem buildAnalogResponse_ok {req : PylontechFrame} {cells : JkCellInfo} {pack : JkPackInfo}
    {resp : List UInt8} (h : buildAnalogResponse req cells pack = .ok resp) :
    ∃ cap, scaleCapacityToU16 pack.totalCapacityMah pack.remainingCapacityMah = .ok cap ∧
      resp = buildPylontech
        { okResponse req with info := (analogResponse req cells pack cap).serialize } := by
  rw [buildAnalogResponse] at h
  cases hCap : scaleCapacityToU16 pack.totalCapacityMah pack.remainingCapacityMah with
  | error fault => rw [hCap] at h; cases h
  | ok cap =>
    rw [hCap] at h
    exact ⟨cap, rfl, (Except.ok.inj h).symm⟩

end BmsBridge
