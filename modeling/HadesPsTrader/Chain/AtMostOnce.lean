/- Module: HadesPsTrader/Chain/AtMostOnce
   source: src/trader.rs
   digest: A buy call sends a second transaction exactly when an earlier one is still open. -/

import Mathlib.Data.List.Basic
import HadesPsTrader.Chain.Attempts

set_option autoImplicit false
set_option relaxedAutoImplicit false

namespace HadesPsTrader.Chain

open HadesPsTrader.Market

/-! ### Wires -/

/-- Every transaction is sent only when all sent before it are known to have failed. -/
def SentOnceSettled (w : List Wire) : Prop :=
  ∀ pre sig fate post, w = pre ++ Wire.sent sig fate :: post →
    ∀ sig' fate', Wire.sent sig' fate' ∈ pre → Wire.failed sig' ∈ pre

/-- The transaction of a wire entry, if it was sent and is not seen to fail in `w`. -/
def openIn (w : List Wire) : Wire → Option Signature
  | .sent sig _ => if Wire.failed sig ∈ w then none else some sig
  | .tradeLocal _ _ => none
  | .failed _ => none
  | .confirmed _ => none

/-- The transactions that may still land: sent, and not seen to fail. -/
def mayLand (w : List Wire) : List Signature := w.filterMap (openIn w)

/-- At-most-once: no resend while a transaction is open, and at most one that may land. -/
def AtMostOnce (w : List Wire) : Prop :=
  SentOnceSettled w ∧ (mayLand w).length ≤ 1

def Sends (w : List Wire) : Prop := ∃ sig fate, Wire.sent sig fate ∈ w

/-- Something sent is not seen to fail. -/
def LeavesOpen (w : List Wire) : Prop :=
  ∃ sig fate, Wire.sent sig fate ∈ w ∧ Wire.failed sig ∉ w

/-- No failure seen in one wire is about a transaction sent in the other. -/
def Apart (w₁ w₂ : List Wire) : Prop :=
  (∀ sig fate, Wire.sent sig fate ∈ w₁ → Wire.failed sig ∉ w₂) ∧
    ∀ sig fate, Wire.sent sig fate ∈ w₂ → Wire.failed sig ∉ w₁

theorem sends_append (w₁ w₂ : List Wire) : Sends (w₁ ++ w₂) ↔ Sends w₁ ∨ Sends w₂ := by
  simp only [Sends, List.mem_append, exists_or]

theorem leavesOpen_append {w₁ w₂ : List Wire} (apart : Apart w₁ w₂) :
    LeavesOpen (w₁ ++ w₂) ↔ LeavesOpen w₁ ∨ LeavesOpen w₂ := by
  constructor
  · rintro ⟨sig, fate, sent, alive⟩
    rw [List.mem_append, not_or] at alive
    rcases List.mem_append.mp sent with sent | sent
    · exact .inl ⟨sig, fate, sent, alive.1⟩
    · exact .inr ⟨sig, fate, sent, alive.2⟩
  · rintro (⟨sig, fate, sent, alive⟩ | ⟨sig, fate, sent, alive⟩)
    · exact ⟨sig, fate, List.mem_append_left _ sent, by
        simp [alive, apart.1 sig fate sent]⟩
    · exact ⟨sig, fate, List.mem_append_right _ sent, by
        simp [alive, apart.2 sig fate sent]⟩

theorem settled_append {w₁ w₂ : List Wire} (apart : Apart w₁ w₂) :
    SentOnceSettled (w₁ ++ w₂) ↔
      SentOnceSettled w₁ ∧ SentOnceSettled w₂ ∧ (Sends w₂ → ¬ LeavesOpen w₁) := by
  constructor
  · intro settled
    refine ⟨?_, ?_, ?_⟩
    · intro pre sig fate post split
      exact settled pre sig fate (post ++ w₂) (by rw [split]; simp)
    · intro pre sig fate post split sig' fate' sent
      have seen := settled (w₁ ++ pre) sig fate post (by rw [split]; simp) sig' fate'
        (List.mem_append_right _ sent)
      rcases List.mem_append.mp seen with seen | seen
      · exact absurd seen (apart.2 sig' fate' (by rw [split]; exact List.mem_append_left _ sent))
      · exact seen
    · rintro ⟨sig, fate, sent⟩ ⟨sig', fate', sent', alive⟩
      obtain ⟨pre, post, split⟩ := List.append_of_mem sent
      have seen := settled (w₁ ++ pre) sig fate post (by rw [split]; simp) sig' fate'
        (List.mem_append_left _ sent')
      rcases List.mem_append.mp seen with seen | seen
      · exact alive seen
      · exact apart.1 sig' fate' sent' (by rw [split]; exact List.mem_append_left _ seen)
  · rintro ⟨settled₁, settled₂, closed⟩ pre sig fate post split sig' fate' sent
    rcases List.append_eq_append_iff.mp split with ⟨a, rfl, tail⟩ | ⟨a, rfl, tail⟩
    · -- the send lies in the second wire
      rcases List.mem_append.mp sent with sent | sent
      · by_contra alive
        exact closed ⟨sig, fate, by rw [tail]; simp⟩
          ⟨sig', fate', sent, fun seen => alive (List.mem_append_left _ seen)⟩
      · exact List.mem_append_right _ (settled₂ a sig fate post tail sig' fate' sent)
    · cases a with
      | nil =>
          simp only [List.nil_append] at tail
          by_contra alive
          exact closed ⟨sig, fate, by rw [← tail]; simp⟩
            ⟨sig', fate', by simpa using sent, by simpa using alive⟩
      | cons e a =>
          simp only [List.cons_append, List.cons.injEq] at tail
          obtain ⟨rfl, rfl⟩ := tail
          exact settled₁ pre sig fate a rfl sig' fate' sent

private theorem last_send (w : List Wire) : ¬ Sends w ∨ ∃ pre sig fate post,
    w = pre ++ Wire.sent sig fate :: post ∧ ¬ Sends post := by
  induction w with
  | nil => exact .inl (by simp [Sends])
  | cons e w ih =>
      rcases ih with silent | ⟨pre, sig, fate, post, rfl, silent⟩
      · cases e with
        | sent sig fate => exact .inr ⟨[], sig, fate, w, rfl, silent⟩
        | tradeLocal body array => exact .inl (by simpa [Sends] using silent)
        | failed sig => exact .inl (by simpa [Sends] using silent)
        | confirmed sig => exact .inl (by simpa [Sends] using silent)
      · exact .inr ⟨e :: pre, sig, fate, post, rfl, silent⟩

private theorem openIn_eq_nil {w v : List Wire}
    (h : ∀ sig fate, Wire.sent sig fate ∈ v → Wire.failed sig ∈ w) :
    v.filterMap (openIn w) = [] := by
  refine List.filterMap_eq_nil_iff.mpr ?_
  intro e he
  cases e with
  | sent sig fate => simp [openIn, h sig fate he]
  | tradeLocal body array => rfl
  | failed sig => rfl
  | confirmed sig => rfl

/-- When the wire is settled, only the last transaction sent may still land. -/
theorem mayLand_length_le {w : List Wire} (settled : SentOnceSettled w) :
    (mayLand w).length ≤ 1 := by
  rcases last_send w with silent | ⟨pre, sig, fate, post, split, silent⟩
  · rw [mayLand, openIn_eq_nil fun sig fate sent => absurd ⟨sig, fate, sent⟩ silent]
    exact Nat.zero_le 1
  · have before : pre.filterMap (openIn w) = [] := openIn_eq_nil fun sig' fate' sent => by
      rw [split]
      exact List.mem_append_left _ (settled pre sig fate post split sig' fate' sent)
    have after : post.filterMap (openIn w) = [] :=
      openIn_eq_nil fun sig fate sent => absurd ⟨sig, fate, sent⟩ silent
    have parts : mayLand w = pre.filterMap (openIn w) ++
        ([Wire.sent sig fate].filterMap (openIn w) ++ post.filterMap (openIn w)) := by
      rw [← List.filterMap_append, ← List.filterMap_append, mayLand]
      exact congrArg (List.filterMap (openIn w)) split
    rw [parts, before, after, List.nil_append, List.append_nil]
    exact List.length_filterMap_le (openIn w) [Wire.sent sig fate]

theorem atMostOnce_iff (w : List Wire) : AtMostOnce w ↔ SentOnceSettled w :=
  ⟨And.left, fun settled => ⟨settled, mayLand_length_le settled⟩⟩

/-! ### Accounts -/

def Wire.signature : Wire → Option Signature
  | .tradeLocal _ _ => none
  | .sent sig _ => some sig
  | .failed sig => some sig
  | .confirmed sig => some sig

/-- What a stretch of wire amounts to: whose signatures it shows, whether it sends, whether it
sends only when settled, and then whether it leaves a transaction open. -/
structure Account (w : List Wire) (mine : Signature → Prop) (sends settled opens : Prop) :
    Prop where
  signed : ∀ e ∈ w, ∀ sig, e.signature = some sig → mine sig
  sends_iff : Sends w ↔ sends
  settled_iff : SentOnceSettled w ↔ settled
  opens_iff : settled → (LeavesOpen w ↔ opens)

namespace Account

variable {w w₁ w₂ : List Wire} {mine mine₁ mine₂ : Signature → Prop}
  {sends sends₁ sends₂ settled settled₁ settled₂ opens opens₁ opens₂ : Prop}

theorem apart (acc₁ : Account w₁ mine₁ sends₁ settled₁ opens₁)
    (acc₂ : Account w₂ mine₂ sends₂ settled₂ opens₂)
    (disjoint : ∀ sig, mine₁ sig → ¬ mine₂ sig) : Apart w₁ w₂ :=
  ⟨fun sig fate sent seen => disjoint sig (acc₁.signed (.sent sig fate) sent sig rfl)
      (acc₂.signed (.failed sig) seen sig rfl),
    fun sig fate sent seen => disjoint sig (acc₁.signed (.failed sig) seen sig rfl)
      (acc₂.signed (.sent sig fate) sent sig rfl)⟩

theorem append (acc₁ : Account w₁ mine₁ sends₁ settled₁ opens₁)
    (acc₂ : Account w₂ mine₂ sends₂ settled₂ opens₂)
    (disjoint : ∀ sig, mine₁ sig → ¬ mine₂ sig) :
    Account (w₁ ++ w₂) (fun sig => mine₁ sig ∨ mine₂ sig) (sends₁ ∨ sends₂)
      (settled₁ ∧ settled₂ ∧ (sends₂ → ¬ opens₁)) (opens₁ ∨ opens₂) where
  signed e he sig hsig := (List.mem_append.mp he).imp
    (fun he => acc₁.signed e he sig hsig) (fun he => acc₂.signed e he sig hsig)
  sends_iff := by rw [sends_append, acc₁.sends_iff, acc₂.sends_iff]
  settled_iff := by
    rw [settled_append (acc₁.apart acc₂ disjoint), acc₁.settled_iff, acc₂.settled_iff,
      acc₂.sends_iff]
    exact and_congr_right fun settled => by rw [acc₁.opens_iff settled]
  opens_iff settled := by
    rw [leavesOpen_append (acc₁.apart acc₂ disjoint), acc₁.opens_iff settled.1,
      acc₂.opens_iff settled.2.1]

theorem congr (acc : Account w mine₁ sends₁ settled₁ opens₁)
    (mine : ∀ sig, mine₁ sig → mine₂ sig) (sends : sends₁ ↔ sends₂)
    (settled : settled₁ ↔ settled₂) (opens : settled₂ → (opens₁ ↔ opens₂)) :
    Account w mine₂ sends₂ settled₂ opens₂ where
  signed e he sig hsig := mine sig (acc.signed e he sig hsig)
  sends_iff := acc.sends_iff.trans sends
  settled_iff := acc.settled_iff.trans settled
  opens_iff h := (acc.opens_iff (settled.mpr h)).trans (opens h)

end Account

section Handover

variable {body : TradeBody} {array : Bool} {taken : Option Fate} {sigs : List Signature}
  {shown : List Wire} {mine : Signature → Prop}

private theorem sent_mem_sentIf {sig : Signature} {fate : Fate} :
    Wire.sent sig fate ∈ sentIf taken sigs ↔ taken = some fate ∧ sig ∈ sigs := by
  cases taken with
  | none => simp [sentIf]
  | some fate' => simp [sentIf, and_comm]

private theorem failed_mem_sentIf {sig : Signature} : Wire.failed sig ∉ sentIf taken sigs := by
  cases taken with
  | none => simp [sentIf]
  | some fate => simp [sentIf]

private theorem sent_mem_handover (quiet : ¬ Sends shown) {sig : Signature} {fate : Fate} :
    Wire.sent sig fate ∈ Wire.tradeLocal body array :: (sentIf taken sigs ++ shown) ↔
      taken = some fate ∧ sig ∈ sigs := by
  have unseen : Wire.sent sig fate ∉ shown := fun sent => quiet ⟨sig, fate, sent⟩
  simp [sent_mem_sentIf, unseen]

private theorem failed_mem_handover {sig : Signature} :
    Wire.failed sig ∈ Wire.tradeLocal body array :: (sentIf taken sigs ++ shown) ↔
      Wire.failed sig ∈ shown := by
  simp [failed_mem_sentIf]

private theorem sends_count (quiet : ¬ Sends shown) :
    ((Wire.tradeLocal body array :: (sentIf taken sigs ++ shown)).filter (· matches .sent _ _)) =
      sentIf taken sigs := by
  have none_shown : shown.filter (· matches .sent _ _) = [] := by
    refine List.filter_eq_nil_iff.mpr ?_
    intro e he
    cases e with
    | sent sig fate => exact absurd ⟨sig, fate, he⟩ quiet
    | tradeLocal body array => simp
    | failed sig => simp
    | confirmed sig => simp
  cases taken with
  | none => simp [sentIf, none_shown]
  | some fate => simp [sentIf, none_shown, List.filter_map, Function.comp_def]

private theorem settled_handover (quiet : ¬ Sends shown) :
    SentOnceSettled (.tradeLocal body array :: (sentIf taken sigs ++ shown)) ↔
      (taken.isSome → sigs.length ≤ 1) := by
  constructor
  · intro settled isSome
    obtain ⟨fate, rfl⟩ := Option.isSome_iff_exists.mp isSome
    match sigs with
    | [] => simp
    | [sig] => simp
    | sig :: sig' :: rest =>
        have seen := settled [.tradeLocal body array, .sent sig fate] sig' fate
          (rest.map (.sent · fate) ++ shown) rfl sig fate (by simp)
        simp at seen
  · intro single pre sig fate post split sig' fate' sent
    exfalso
    obtain ⟨a, b, rfl⟩ := List.append_of_mem sent
    have count := congrArg List.length ((sends_count quiet).symm.trans (congrArg _ split))
    cases taken with
    | none => simp [sentIf] at count
    | some fate =>
        have few := single rfl
        simp [sentIf] at count
        omega

theorem Account.handover (taken : Option Fate) (sigs : List Signature) (quiet : ¬ Sends shown)
    (signed : ∀ sig ∈ sigs, mine sig)
    (about : ∀ e ∈ shown, ∀ sig, e.signature = some sig → mine sig) :
    Account (.tradeLocal body array :: (sentIf taken sigs ++ shown)) mine
      (taken.isSome ∧ sigs ≠ []) (taken.isSome → sigs.length ≤ 1)
      (taken.isSome ∧ ∃ sig ∈ sigs, Wire.failed sig ∉ shown) where
  signed e he sig hsig := by
    rcases List.mem_cons.mp he with rfl | he
    · cases hsig
    rcases List.mem_append.mp he with he | he
    · cases e with
      | tradeLocal body array => cases hsig
      | sent sig' fate =>
          cases hsig
          exact signed sig (sent_mem_sentIf.mp he).2
      | failed sig' => exact absurd he failed_mem_sentIf
      | confirmed sig' =>
          cases taken with
          | none => cases he
          | some fate => simp [sentIf] at he
    · exact about e he sig hsig
  sends_iff := by
    simp only [Sends, sent_mem_handover quiet, Option.isSome_iff_exists]
    rw [exists_comm]
    simp only [exists_and_left, exists_and_right, ne_eq, List.eq_nil_iff_forall_not_mem,
      not_forall, not_not]
  settled_iff := settled_handover quiet
  opens_iff _ := by
    simp only [LeavesOpen, sent_mem_handover quiet, failed_mem_handover,
      Option.isSome_iff_exists]
    rw [exists_comm]
    simp only [and_assoc, exists_and_left, exists_and_right]

end Handover

end HadesPsTrader.Chain
