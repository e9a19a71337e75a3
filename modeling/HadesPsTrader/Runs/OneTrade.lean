/- Module: HadesPsTrader/Runs/OneTrade
   source: src/main.rs, src/session.rs
   digest: When the sessions of one token keep to one open trade. -/

import HadesPsTrader.Runs.SlotAccounting

set_option autoImplicit false
set_option relaxedAutoImplicit false

namespace HadesPsTrader.Tasks

open HadesPsTrader.Market HadesPsTrader.Chain HadesPsTrader.Interaction

/-- The mints of the open positions, one for each session that holds one. -/
def openMints (c : GradConfig) : List String :=
  c.tasks.filterMap fun t => t.locals.position.map Position.mint

/-- No two sessions hold an open position for the same mint. -/
def OneTradePerMint (c : GradConfig) : Prop := (openMints c).Nodup

/-- The locals of a session that reserves its slot for a buy. -/
def reservingLocals : GradLabel → Option SessionLocals
  | .perform _ l .fetchAdd _ => some l
  | _ => none

/-- A session reserves its slot for a buy only while no session of its mint holds one. -/
def LonelyEntries : GradAdmit := fun _ c e =>
  ∀ l ∈ reservingLocals e, ∀ t ∈ c.tasks, t.locals.event.mint = l.event.mint →
    t.locals.reserved = false

instance (tr : GradTrace) (c : GradConfig) (e : GradLabel) : Decidable (LonelyEntries tr c e) :=
  inferInstanceAs (Decidable (∀ l ∈ reservingLocals e, ∀ t ∈ c.tasks,
    t.locals.event.mint = l.event.mint → t.locals.reserved = false))

section Runs

variable {cfg : Market.Config} {dryRun : Bool} {start : Instant} {admits : GradAdmit}
  {tr : GradTrace} {c : GradConfig}

theorem holder_mint (run : GradRun cfg dryRun start admits tr c) {i : Nat}
    {t : TaskProc SessionLocals} (here : c.tasks[i]? = some t)
    (held : (diary cfg dryRun i tr).slot ≠ .free) :
    (diary cfg dryRun i tr).mint = some t.locals.event.mint := by
  have known : (diary cfg dryRun i tr).slot ≠ .free → (diary cfg dryRun i tr).mint ≠ none := by
    apply run.invariant (fun tr _ => (diary cfg dryRun i tr).slot ≠ .free →
      (diary cfg dryRun i tr).mint ≠ none)
    · intro held
      exact absurd rfl held
    intro tr c e c' _ ih _ moved
    cases moved with
    | @perform j l o resume r s' pending granted =>
        rcases eq_or_ne j i with rfl | other
        · rw [diary_self]
          simp
        · rwa [diary_other other]
    | unroll pending => rwa [diary_unroll]
    | env granted => rwa [diary_env]
  obtain ⟨m, mint⟩ := Option.ne_none_iff_exists'.mp (known held)
  rw [mint, (session_coherent run here).mint m mint]

theorem lone_holder (run : GradRun cfg dryRun start LonelyEntries tr c) :
    ∀ i j, i ≠ j → (diary cfg dryRun i tr).slot ≠ .free → (diary cfg dryRun j tr).slot ≠ .free →
      (diary cfg dryRun i tr).mint ≠ (diary cfg dryRun j tr).mint := by
  apply run.invariant (fun tr _ => ∀ i j, i ≠ j → (diary cfg dryRun i tr).slot ≠ .free →
    (diary cfg dryRun j tr).slot ≠ .free →
      (diary cfg dryRun i tr).mint ≠ (diary cfg dryRun j tr).mint)
  · intro i j apart held
    exact absurd rfl held
  intro tr c e c' before ih admitted moved
  cases moved with
  | @perform k l o resume r s' pending granted =>
      -- the session that moves, against any other that holds a slot
      have apart (j : Nat) (other : k ≠ j)
          (held : ((diary cfg dryRun k tr).next cfg dryRun c.shared l o r).slot ≠ .free)
          (holds : (diary cfg dryRun j tr).slot ≠ .free) :
          some l.event.mint ≠ (diary cfg dryRun j tr).mint := by
        cases slot_step dryRun (session_permits before pending) granted with
        | reserve add _ _ _ _ _ =>
            have spawned : j < c.tasks.length :=
              lt_of_not_ge fun new => holds (unspawned_free before new)
            have there := List.getElem?_eq_getElem spawned
            rw [holder_mint before there holds]
            intro same
            have reserving : l ∈ reservingLocals (.perform k l o r : GradLabel) := by
              cases o with
              | fetchAdd => rfl
              | _ => cases add
            have quiet := admitted l reserving _ (List.getElem_mem spawned)
              (Option.some.inj same).symm
            rw [(session_coherent before there).reserved_iff.mpr holds] at quiet
            cases quiet
        | release _ _ _ freed _ => exact absurd held (of_decide_eq_false freed)
        | neither _ _ kept _ _ =>
            have holding : (diary cfg dryRun k tr).slot ≠ .free :=
              (decide_eq_decide.mp kept).mp held
            have known : (diary cfg dryRun k tr).mint = some l.event.mint :=
              holder_mint before pending holding
            rw [← known]
            exact ih k j other holding holds
      intro i j other
      rcases eq_or_ne k i with rfl | ne
      · rw [diary_self, diary_other other]
        exact apart j other
      · rw [diary_other ne]
        rcases eq_or_ne k j with rfl | ne'
        · rw [diary_self]
          exact fun holds held => (apart i ne held holds).symm
        · rw [diary_other ne']
          exact ih i j other
  | unroll pending => simpa only [diary_unroll] using ih
  | env granted => simpa only [diary_env] using ih

theorem one_trade_per_mint (cfg : Market.Config) (dryRun : Bool) (start : Instant) (tr : GradTrace)
    (c : GradConfig) (run : GradRun cfg dryRun start LonelyEntries tr c) : OneTradePerMint c := by
  rw [OneTradePerMint, openMints, List.nodup_iff_pairwise_ne, List.pairwise_filterMap,
    List.pairwise_iff_getElem]
  intro i j hi hj lt m opened m' opened' same
  subst same
  -- an open position is held in a slot, under the mint of its session
  have holder {k : Nat} (hk : k < c.tasks.length)
      (opened : c.tasks[k].locals.position.map Position.mint = some m) :
      (diary cfg dryRun k tr).slot ≠ .free ∧ (diary cfg dryRun k tr).mint = some m := by
    have here := List.getElem?_eq_getElem hk
    obtain ⟨pos, position, rfl⟩ := Option.map_eq_some_iff.mp opened
    cases (session_coherent run here).stance with
    | opened pos' position' _ _ slot _ _ mint =>
        obtain rfl : pos' = pos := Option.some.inj (position'.symm.trans position)
        have held : (diary cfg dryRun k tr).slot ≠ .free := by rw [slot]; simp
        exact ⟨held, mint ▸ holder_mint run here held⟩
    | idle away _ _ _ _ _ => simp [away] at position
    | selling _ away _ _ _ _ _ _ => simp [away] at position
    | buying _ away _ _ _ _ _ _ => simp [away] at position
  obtain ⟨held, mint⟩ := holder hi opened
  obtain ⟨held', mint'⟩ := holder hj opened'
  exact lone_holder run i j (Nat.ne_of_lt lt) held held' (mint.trans mint'.symm)

end Runs

theorem one_trade_per_mint_one_buy : ∃ c, openMints c = [someMint] ∧ OneTradePerMint c := by
  obtain ⟨tr, c, run, opened⟩ := System.drive_reaches (graduation eager false)
    LonelyEntries (fun tr c e => LonelyEntries tr c e)
    (fun _ _ _ => of_decide_eq_true) (graduationStart eager 0)
    (warmUp 0 ++ buyTick readyNet 0 9) (fun _ c => openMints c = [someMint]) (by decide +kernel)
  exact ⟨c, of_decide_eq_true opened, one_trade_per_mint eager false 0 tr c run⟩

/-- A migration that is delivered twice starts two sessions, and both buy. -/
theorem repeated_migration_pyramids : ¬ ∀ (cfg : Market.Config) (dryRun : Bool) (start : Instant)
    (tr : GradTrace) (c : GradConfig), GradRun cfg dryRun start always tr c →
      OneTradePerMint c := by
  intro claimed
  obtain ⟨tr, c, run, opened⟩ := System.script_reaches (graduation eager false)
    (graduationStart eager 0)
    (warmUp 0 ++ buyTick readyNet 0 9 ++ warmUp 1 ++ buyTick readyNet 1 9)
    (fun _ c => openMints c = [someMint, someMint]) (by decide +kernel)
  have lone : (openMints c).Nodup := claimed eager false 0 tr c run
  rw [of_decide_eq_true opened] at lone
  exact absurd lone (by decide)

end HadesPsTrader.Tasks
