import Mathlib.Tactic.Ring
import VissServer.ServiceMgr.CurveLog

/-!
What the ring buffer of a curve log holds: the latest samples, of which those between tail and
head count as populated.
-/
namespace VissServer.ServiceMgr.CurveLog

open Go

/-- The buffer holds the latest of the samples that were written, the first one first. -/
structure Holds (r : RingBuffer) (w : List RingElement) : Prop where
  size : r.bufSize = r.ringElem.length
  head : 0 ≤ r.head ∧ r.head < r.bufSize
  tail : r.tail < r.bufSize
  contents : ∀ k : ℕ, k < r.bufSize → k < w.length → readRing r k = w[w.length - 1 - k]?
  blank : w = [] → readRing r 0 = some { value := [], timestamp := [] }

section Ring

variable {r : RingBuffer} {w : List RingElement} {e : RingElement}

theorem createRingBuffer_holds {size : ℤ} (hpos : 0 < size) :
    ∃ r, createRingBuffer size = some r ∧ Holds r [] ∧ r.bufSize = size ∧
      getNumOfPopulatedRingElements r = 0 := by
  have hlength : ((List.replicate size.toNat ({ value := [], timestamp := [] } : RingElement)).length
      : ℤ) = size := by
    rw [List.length_replicate]
    omega
  refine ⟨_, if_neg hpos.not_gt, ⟨hlength.symm, ⟨le_refl _, hpos⟩, hpos, nofun, ?_⟩, rfl, rfl⟩
  intro _
  have hlast : (0 : ℤ) - (0 + 1) + size = size - 1 := by ring
  simp only [readRing, hlast]
  rw [if_pos (by omega), if_pos (by omega), List.getElem?_replicate, if_pos (by omega)]

/-- Where readRing looks. -/
theorem readRing_eq (hhead : 0 ≤ r.head ∧ r.head < r.bufSize) {k : ℕ} (hk : k < r.bufSize) :
    readRing r k = r.ringElem[((r.head - (k + 1)) % r.bufSize).toNat]? := by
  unfold readRing
  by_cases hneg : r.head - (k + 1) < 0
  · have hmod : (r.head - (k + 1)) % r.bufSize = r.head - (k + 1) + r.bufSize := by
      rw [← Int.add_emod_right]
      exact Int.emod_eq_of_lt (by omega) (by omega)
    simp only [if_pos hneg]
    rw [if_pos (by omega), hmod]
  · have hmod : (r.head - (k + 1)) % r.bufSize = r.head - (k + 1) :=
      Int.emod_eq_of_lt (by omega) (by omega)
    simp only [if_neg hneg]
    rw [if_pos (by omega), hmod]

/-- The buffer after a write. -/
def written (r : RingBuffer) (e : RingElement) : RingBuffer :=
  { r with
    ringElem := r.ringElem.set r.head.toNat e
    head := if r.head + 1 = r.bufSize then 0 else r.head + 1 }

theorem writeRing_eq (h : Holds r w) (e : RingElement) :
    writeRing r e.value e.timestamp = some (written r e) := by
  have hhead := h.head
  have hsize := h.size
  rw [writeRing, if_pos (by omega)]
  rfl

theorem written_head (h : Holds r w) : (written r e).head = (r.head + 1) % r.bufSize := by
  have hhead := h.head
  unfold written
  dsimp only
  split
  · next hend => rw [hend, Int.emod_self]
  · rw [Int.emod_eq_of_lt] <;> omega

/-- A write puts a sample in front of those that are held. -/
theorem written_holds (h : Holds r w) : Holds (written r e) (w ++ [e]) := by
  have hhead := h.head
  have hsize := h.size
  have hnew : 0 ≤ (written r e).head ∧ (written r e).head < r.bufSize := by
    rw [written_head h]
    exact ⟨Int.emod_nonneg _ (by omega), Int.emod_lt_of_pos _ (by omega)⟩
  refine ⟨?_, hnew, h.tail, ?_, by simp⟩
  · unfold written
    rw [List.length_set]
    exact hsize
  · intro k hk hkw
    have hbuf : (written r e).bufSize = r.bufSize := rfl
    rw [hbuf] at hk
    have hindex : ((written r e).head - (k + 1)) % r.bufSize = (r.head - k) % r.bufSize := by
      rw [written_head h, Int.emod_sub_emod]
      congr 1
      ring
    rw [readRing_eq hnew hk, hbuf, hindex, List.length_append, List.length_singleton]
    cases k with
    | zero =>
      have hhere : (r.head - (0 : ℕ)) % r.bufSize = r.head := by
        rw [Nat.cast_zero, sub_zero]
        exact Int.emod_eq_of_lt hhead.1 hhead.2
      rw [hhere, written, List.getElem?_set_self (by omega)]
      simp
    | succ k =>
      have hother : ((r.head - (k + 1 : ℕ)) % r.bufSize).toNat ≠ r.head.toNat := by
        intro heq
        have hnonneg := Int.emod_nonneg (r.head - (k + 1 : ℕ)) (show r.bufSize ≠ 0 by omega)
        have hmod : (r.head - (k + 1 : ℕ)) % r.bufSize = r.head := by omega
        have hdvd : r.bufSize ∣ (k + 1 : ℕ) := by
          have hsub := Int.dvd_self_sub_of_emod_eq hmod
          rwa [sub_sub_cancel_left, dvd_neg] at hsub
        have hle := Int.le_of_dvd (by omega) hdvd
        omega
      rw [List.length_append, List.length_singleton] at hkw
      have hold := h.contents k (by omega) (by omega)
      rw [readRing_eq hhead (by omega)] at hold
      rw [written, List.getElem?_set_ne hother.symm, Nat.cast_succ, hold,
        List.getElem?_append_left (by omega)]
      congr 1
      omega

theorem populated_nonneg (h : Holds r w) : 0 ≤ getNumOfPopulatedRingElements r := by
  have hhead := h.head
  have htail := h.tail
  unfold getNumOfPopulatedRingElements
  split <;> omega

theorem written_populated (h : Holds r w)
    (hroom : getNumOfPopulatedRingElements r + 1 < r.bufSize) :
    getNumOfPopulatedRingElements (written r e) = getNumOfPopulatedRingElements r + 1 := by
  have hhead := h.head
  have htail := h.tail
  unfold getNumOfPopulatedRingElements at hroom ⊢
  unfold written
  dsimp only
  split at hroom <;> split <;> split <;> omega

theorem setRingTail_holds (h : Holds r w) (k : ℕ) : Holds (setRingTail r k) w := by
  have hhead := h.head
  refine ⟨h.size, h.head, ?_, h.contents, h.blank⟩
  unfold setRingTail
  dsimp only
  omega

theorem setRingTail_populated (k : ℕ) :
    getNumOfPopulatedRingElements (setRingTail r k) = k + 1 := by
  unfold getNumOfPopulatedRingElements setRingTail
  dsimp only
  split <;> omega

end Ring

end VissServer.ServiceMgr.CurveLog
