/- Module: HadesPsTrader/Market/SpendWindow
   source: src/dip_buy.rs
   digest: The spend tracker as a view of the log of all spends. -/

import Mathlib.Algebra.BigOperators.Group.List.Basic
import HadesPsTrader.Market.DipBuy
import HadesPsTrader.Market.TickWindow

set_option autoImplicit false
set_option relaxedAutoImplicit false

namespace HadesPsTrader.Market

/-- What was spent within the window before `now`, from the log of all spends. -/
def spentWithin (window : Duration) (log : List (Instant × ℚ)) (now : Instant) : ℚ :=
  ((log.filter fun e => now - e.1 ≤ window).map Prod.snd).sum

@[simp] theorem spentWithin_nil (window : Duration) (now : Instant) :
    spentWithin window [] now = 0 := rfl

theorem spentWithin_record (window : Duration) (log : List (Instant × ℚ)) (now : Instant)
    (amountSol : ℚ) : spentWithin window (log ++ [(now, amountSol)]) now =
      spentWithin window log now + amountSol := by
  simp [spentWithin, List.filter_append]

theorem sum_fewer {xs ys : List (Instant × ℚ)} {amountSol : ℚ} (all : ∀ e ∈ xs, e.2 = amountSol)
    (fewer : ys.Sublist xs) :
    (ys.map Prod.snd).sum ≤ (xs.map Prod.snd).sum ∨
      amountSol ≤ 0 ∧ (ys.map Prod.snd).sum ≤ 0 := by
  have counted {zs : List (Instant × ℚ)} (part : zs.Sublist xs) :
      (zs.map Prod.snd).sum = zs.length * amountSol := by
    rw [← nsmul_eq_mul, ← List.sum_replicate]
    congr 1
    refine List.eq_replicate_iff.mpr ⟨by simp, fun a mem => ?_⟩
    obtain ⟨e, here, rfl⟩ := List.mem_map.mp mem
    exact all e (part.subset here)
  rw [counted fewer, counted (.refl xs)]
  rcases le_total amountSol 0 with neg | pos
  · exact .inr ⟨neg, mul_nonpos_of_nonneg_of_nonpos (Nat.cast_nonneg _) neg⟩
  · exact .inl (mul_le_mul_of_nonneg_right (Nat.cast_le.mpr fewer.length_le) pos)

theorem spentWithin_later {window : Duration} {log : List (Instant × ℚ)} {now later : Instant}
    {amountSol : ℚ} (constant : ∀ e ∈ log, e.2 = amountSol) (le : now ≤ later) :
    spentWithin window log later ≤ spentWithin window log now ∨
      amountSol ≤ 0 ∧ spentWithin window log later ≤ 0 := by
  refine sum_fewer (fun e mem => constant e (List.mem_filter.mp mem).1) ?_
  refine List.monotone_filter_right log ?_
  intro e h
  rw [decide_eq_true_eq] at h ⊢
  exact le_trans (Nat.sub_le_sub_right le e.1) h

namespace DailySpendTracker

/-- The tracker holds the log of all spends, less a front that is out of the window. -/
structure Holds (t : DailySpendTracker) (log : List (Instant × ℚ)) (now : Instant) : Prop where
  sorted : log.Pairwise fun x y => x.1 ≤ y.1
  past : ∀ e ∈ log, e.1 ≤ now
  cut : ∃ old, log = old ++ t.spends ∧ ∀ e ∈ old, t.window < now - e.1

variable {t : DailySpendTracker} {log : List (Instant × ℚ)} {now : Instant}

theorem new_holds (cap : ℚ) (now : Instant) : (new cap).Holds [] now :=
  ⟨.nil, nofun, [], rfl, nofun⟩

theorem Holds.later (h : t.Holds log now) {later : Instant} (le : now ≤ later) :
    t.Holds log later := by
  obtain ⟨sorted, past, old, split, older⟩ := h
  exact ⟨sorted, fun e mem => (past e mem).trans le, old, split,
    fun e mem => (older e mem).trans_le (Nat.sub_le_sub_right le e.1)⟩

theorem Holds.evict (h : t.Holds log now) {reading : Instant} (le : reading ≤ now) :
    (t.evict reading).Holds log now := by
  obtain ⟨sorted, past, old, split, older⟩ := h
  obtain ⟨dropped, rest, stale⟩ := evictOld_split t.window reading t.spends
  refine ⟨sorted, past, old ++ dropped, by rw [List.append_assoc, split]; exact congrArg _ rest, ?_⟩
  intro e mem
  rcases List.mem_append.mp mem with first | second
  · exact older e first
  · exact (stale e second).trans_le (Nat.sub_le_sub_right le e.1)

theorem Holds.total_evict (h : t.Holds log now) :
    (t.evict now).total = spentWithin t.window log now := by
  obtain ⟨sorted, _, old, rfl, older⟩ := h
  have gone : old.filter (fun e => now - e.1 ≤ t.window) = [] := by
    refine List.filter_eq_nil_iff.mpr ?_
    intro e mem recent
    exact absurd (older e mem) (not_lt.mpr (of_decide_eq_true recent))
  rw [spentWithin, List.filter_append, gone, List.nil_append,
    ← evictOld_eq_filter (List.pairwise_append.mp sorted).2.1]
  rfl

theorem Holds.check_ok (h : t.Holds log now) (amountSol : ℚ) :
    (t.check now amountSol).2 = .ok () ↔ spentWithin t.window log now + amountSol ≤ t.capSol := by
  have same : (t.evict now).capSol = t.capSol := rfl
  simp only [check, same, h.total_evict]
  split_ifs with exceeds
  · simp [exceeds]
  · simpa using exceeds

theorem Holds.checked (h : t.Holds log now) {reading : Instant} (le : reading ≤ now)
    {amountSol : ℚ} (constant : ∀ e ∈ log, e.2 = amountSol) (room : 0 ≤ t.capSol)
    (passed : (t.check reading amountSol).2 = .ok ()) :
    spentWithin t.window log now + amountSol ≤ t.capSol := by
  have kept := h.evict le
  have total : (t.evict reading).total + amountSol ≤ t.capSol := by
    simp only [check] at passed
    split_ifs at passed with exceeds
    exact not_lt.mp exceeds
  obtain ⟨old, split, _⟩ := kept.cut
  have fewer : ((t.evict reading).evict now).spends.Sublist (t.evict reading).spends := by
    obtain ⟨dropped, rest, _⟩ := evictOld_split t.window now (t.evict reading).spends
    rw [rest]
    exact List.sublist_append_right dropped _
  have now_total : ((t.evict reading).evict now).total = spentWithin t.window log now :=
    kept.total_evict
  rw [← now_total]
  rcases sum_fewer (fun e mem => constant e (by rw [split]; exact List.mem_append_right _ mem))
    fewer with less | ⟨neg, none⟩
  · exact (add_le_add_left less amountSol).trans total
  · exact (add_nonpos none neg).trans room

theorem Holds.record (h : t.Holds log now) (amountSol : ℚ) :
    (t.record now amountSol).Holds (log ++ [(now, amountSol)]) now := by
  obtain ⟨sorted, past, old, split, older⟩ := h.evict (le_refl now)
  refine ⟨List.pairwise_append.mpr ⟨sorted, List.pairwise_singleton _ _, ?_⟩, ?_, old, ?_, older⟩
  · intro x mem y last
    cases List.mem_singleton.mp last
    exact past x mem
  · intro e mem
    rcases List.mem_append.mp mem with first | last
    · exact past e first
    · cases List.mem_singleton.mp last
      exact le_refl now
  · rw [split, List.append_assoc]
    rfl

end DailySpendTracker

end HadesPsTrader.Market
