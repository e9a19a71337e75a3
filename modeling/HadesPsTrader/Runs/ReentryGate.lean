/- Module: HadesPsTrader/Runs/ReentryGate
   source: src/main.rs, src/copy_session.rs, src/config.rs
   digest: What the re-entry gate of the copy loop lets through, and what it should look at. -/

import HadesPsTrader.Runs.CopyMode

set_option autoImplicit false
set_option relaxedAutoImplicit false

namespace HadesPsTrader.Tasks

open HadesPsTrader.Market HadesPsTrader.Chain HadesPsTrader.Interaction

section Frames

variable (cfg : Market.Config) (dryRun : Bool)

/-- A frame of mint `m` was let through at `passed`. -/
def LetThrough (tr : CopyTrace) (m : String) (passed : Instant) : Prop :=
  ∃ (w w' : World) (t : AlphaTrade) (pause : Duration) (session : TaskProc CopyLocals),
    (w, .env (.frame t pause)) ∈ tr ∧ t.mint = m ∧
    (copyMode cfg dryRun).env w (.frame t pause) = some (w', [session]) ∧ w'.clock = passed

/-- The config text, for a buy frame of mint `m` that is let through at `now`: no earlier session
has a position in `m`, and the last frame let through, the last entry and the last exit are a
cooldown ago. -/
structure ReentryClear (tr : CopyTrace) (c : CopyConfig) (m : String) (now : Instant) : Prop where
  closed : ∀ (j : Nat) t, c.tasks[j]? = some t → t.locals.alpha.mint = m → t.locals.boughtAt = none
  entries : ∀ (j : Nat) t, c.tasks[j]? = some t → t.locals.alpha.mint = m →
    ∀ entered, (copyDiary cfg dryRun j tr).entered = some entered →
      entered + fromSecs cfg.copyTrade.reentryCooldownSecs ≤ now
  exits : ∀ (j : Nat) t, c.tasks[j]? = some t → t.locals.alpha.mint = m →
    ∀ left, (copyDiary cfg dryRun j tr).left = some left →
      left + fromSecs cfg.copyTrade.reentryCooldownSecs ≤ now
  frames : ∀ passed, LetThrough cfg dryRun tr m passed →
    passed + fromSecs cfg.copyTrade.reentryCooldownSecs ≤ now

/-- Every earlier session of the mint that bought has returned, a cooldown or more ago. -/
def BuyersGone (tr : CopyTrace) (c : CopyConfig) (m : String) (now : Instant) : Prop :=
  ∀ (j : Nat) t, c.tasks[j]? = some t → t.locals.alpha.mint = m →
    (copyDiary cfg dryRun j tr).entered.isSome → t.finished = true ∧
      (copyDiary cfg dryRun j tr).seen + fromSecs cfg.copyTrade.reentryCooldownSecs ≤ now

end Frames

section Gate

variable {cfg : Market.Config} {dryRun : Bool} {start : Instant} {tr : CopyTrace} {c : CopyConfig}

private theorem gate_passed {w w' : World} {t : AlphaTrade} {pause : Duration}
    {session : TaskProc CopyLocals}
    (h : (copyMode cfg dryRun).env w (.frame t pause) = some (w', [session])) :
    (∀ last, w.recent t.mint = some last →
      fromSecs cfg.copyTrade.reentryCooldownSecs ≤ w'.clock - last) ∧
    w'.recent = Function.update w.recent t.mint (some w'.clock) := by
  rcases copyMode_env_cases h with ⟨t', pause', frame, passed, rfl, _⟩ | ⟨none, _⟩
  · cases frame
    obtain ⟨_, _, through, _⟩ := gateFrame_cases w cfg.copyTrade t pause
    exact through passed
  · cases none

variable (cfg dryRun) in
/-- The map of the gate: its times are past, and it has the last frame let through of each mint. -/
structure GateKept (tr : CopyTrace) (w : World) : Prop where
  past : ∀ m last, w.recent m = some last → last ≤ w.clock
  latest : ∀ m passed, LetThrough cfg dryRun tr m passed →
    ∃ last, w.recent m = some last ∧ passed ≤ last

private theorem GateKept.other {w w' : World} {e : CopyLabel} (kept : GateKept cfg dryRun tr w)
    (later : w.clock ≤ w'.clock) (recent : w'.recent = w.recent)
    (refused : ∀ t pause w'' session, e = .env (.frame t pause) →
      (copyMode cfg dryRun).env w (.frame t pause) ≠ some (w'', [session])) :
    GateKept cfg dryRun (tr ++ [(w, e)]) w' := by
  constructor
  · intro m last here
    rw [recent] at here
    exact (kept.past m last here).trans later
  · rintro m passed ⟨v, v', t, pause, session, mem, mint, granted, clock⟩
    rw [recent]
    rcases List.mem_append.mp mem with old | new
    · exact kept.latest m passed ⟨v, v', t, pause, session, old, mint, granted, clock⟩
    · cases List.mem_singleton.mp new
      exact absurd granted (refused t pause v' session rfl)

theorem gate_kept (run : CopyRun cfg dryRun start always tr c) :
    GateKept cfg dryRun tr c.shared := by
  apply run.invariant (fun tr c => GateKept cfg dryRun tr c.shared)
  · constructor
    · intro m last here
      cases here
    · rintro m passed ⟨_, _, _, _, _, mem, _⟩
      cases mem
  intro tr c e c' _ kept _ moved
  cases moved with
  | perform pending granted =>
      obtain ⟨clock, _, _, recent⟩ := World.perform_clock (copyMode_exec granted)
      exact kept.other clock.ge recent nofun
  | unroll pending => exact kept.other (le_refl _) rfl nofun
  | @env e w' ts granted =>
      rcases copyMode_env_cases granted with ⟨t, pause, rfl, _, _, rfl⟩ | ⟨rfl, later, _, recent⟩
      · obtain ⟨_, written⟩ := gate_passed granted
        have later := (copyMode_env_common granted).1
        constructor
        · intro m last here
          rw [written] at here
          rcases eq_or_ne m t.mint with rfl | other
          · rw [Function.update_self] at here
            exact (Option.some.inj here).ge
          · rw [Function.update_of_ne other] at here
            exact (kept.past m last here).trans later
        · rintro m passed ⟨v, v', t', pause', session, mem, mint, through, clock⟩
          rw [written]
          rcases List.mem_append.mp mem with old | new
          · obtain ⟨last, here, before⟩ :=
              kept.latest m passed ⟨v, v', t', pause', session, old, mint, through, clock⟩
            rcases eq_or_ne m t.mint with rfl | other
            · rw [Function.update_self]
              exact ⟨_, rfl, before.trans ((kept.past _ last here).trans later)⟩
            · rw [Function.update_of_ne other]
              exact ⟨last, here, before⟩
          · cases List.mem_singleton.mp new
            rw [granted] at through
            cases through
            rw [← mint, ← clock, Function.update_self]
            exact ⟨_, rfl, le_refl _⟩
      · refine kept.other later recent ?_
        intro t pause w'' session frame through
        cases frame
        rw [granted] at through
        cases through

end Gate

/-- A frame that spawns a copy session does so in keeping with the config text exactly when the
earlier buyers of its mint are gone for a cooldown. -/
theorem reentry_clear_iff (cfg : Market.Config) (dryRun : Bool) (start : Instant) (tr : CopyTrace)
    (c : CopyConfig) (run : CopyRun cfg dryRun start always tr c) (t : AlphaTrade)
    (pause : Duration) (w : World) (session : TaskProc CopyLocals)
    (granted : (copyMode cfg dryRun).env c.shared (.frame t pause) = some (w, [session])) :
    ReentryClear cfg dryRun tr c t.mint w.clock ↔ BuyersGone cfg dryRun tr c t.mint w.clock := by
  constructor
  · rintro ⟨closed, _, exits, _⟩ j u here mint bought
    cases running : u.finished with
    | false =>
        have coherent := copy_coherent run here running
        rw [coherent.entered, closed j u here mint] at bought
        cases bought
    | true =>
        obtain ⟨entered, known⟩ := Option.isSome_iff_exists.mp bought
        have left := (copy_ended run here running).left
        rw [known, Option.map_some] at left
        exact ⟨rfl, exits j u here mint _ left⟩
  · intro gone
    constructor
    · intro j u here mint
      cases running : u.finished with
      | true => exact (copy_ended run here running).closed
      | false =>
          have coherent := copy_coherent run here running
          rw [← coherent.entered, ← Option.not_isSome_iff_eq_none]
          intro bought
          rw [(gone j u here mint bought).1] at running
          cases running
    · intro j u here mint entered known
      obtain ⟨done, long⟩ := gone j u here mint (by rw [known]; rfl)
      have past := (copy_ended run here done).past entered known
      exact (Nat.add_le_add_right past _).trans long
    · intro j u here mint left known
      cases running : u.finished with
      | false =>
          rw [(copy_coherent run here running).left] at known
          cases known
      | true =>
          rw [(copy_ended run here running).left] at known
          obtain ⟨entered, bought, rfl⟩ := Option.map_eq_some_iff.mp known
          exact (gone j u here mint (by rw [bought]; rfl)).2
    · intro passed before
      have kept := gate_kept run
      obtain ⟨last, here, le⟩ := kept.latest t.mint passed before
      have past : last ≤ w.clock :=
        (kept.past t.mint last here).trans (copyMode_env_common granted).1
      have cooled := (gate_passed granted).1 last here
      exact (Nat.add_le_add_right le _).trans (Nat.add_le_of_le_sub' past cooled)

theorem reentry_clear_after_exit : ∃ tr c w, (copyDiary eager false 0 tr).left = some 0 ∧
    ReentryClear eager false tr c someMint w := by
  obtain ⟨tr, c, run, reached⟩ := System.script_reaches (copyMode eager false)
    (copyStart eager 0)
    (copyEntry 0 "A" ++ [.env (.frame (alphaTrade someMint "A" "sell") 0)] ++ go readyNet 0 7 ++
      [.env (.advance (fromSecs 300))])
    (fun tr c => (c.tasks.map Proc.finished) = [true] ∧
      (copyDiary eager false 0 tr).left = some 0 ∧ (copyDiary eager false 0 tr).seen = 0 ∧
      ((copyMode eager false).env c.shared (.frame (alphaTrade someMint "B" "buy") 0)).any
        (fun x => x.1.clock = fromSecs 300 ∧ x.2.length = 1))
    (by decide +kernel)
  obtain ⟨ended, left, seen, spawned⟩ := of_decide_eq_true reached
  obtain ⟨u, tasks, done⟩ := List.map_eq_singleton_iff.mp ended
  obtain ⟨⟨w, ts⟩, granted, good⟩ := (Option.any_eq_true _ _).mp spawned
  obtain ⟨clock, single⟩ := of_decide_eq_true good
  obtain ⟨session, rfl⟩ := List.length_eq_one_iff.mp single
  refine ⟨tr, c, w.clock, left, (reentry_clear_iff eager false 0 tr c run _ 0 w session granted).mpr
    fun j t here _ bought => ?_⟩
  rw [tasks] at here
  match j, here with
  | 0, here =>
      cases here
      exact ⟨done, by rw [seen, clock]; decide⟩

/-- A second wallet buys the mint while the first copy is still open, and its frame is let
through. -/
theorem open_copy_reentered : ∃ tr c w session, CopyRun eager false 0 always tr c ∧
    (copyMode eager false).env c.shared (.frame (alphaTrade someMint "B" "buy") 0) =
      some (w, [session]) ∧
    ¬ ReentryClear eager false tr c someMint w.clock := by
  obtain ⟨tr, c, run, reached⟩ := System.script_reaches (copyMode eager false)
    (copyStart eager 0) (copyEntry 0 "A" ++ [.env (.advance (fromSecs 300))])
    (fun _ c => (c.tasks.map fun t => (t.locals.alpha.mint, t.locals.boughtAt)) =
        [(someMint, some 0)] ∧
      ((copyMode eager false).env c.shared (.frame (alphaTrade someMint "B" "buy") 0)).any
        (fun x => x.2.length = 1)) (by decide +kernel)
  obtain ⟨held, spawned⟩ := of_decide_eq_true reached
  obtain ⟨t, tasks, here⟩ := List.map_eq_singleton_iff.mp held
  obtain ⟨⟨w, ts⟩, granted, single⟩ := (Option.any_eq_true _ _).mp spawned
  obtain ⟨session, rfl⟩ := List.length_eq_one_iff.mp (of_decide_eq_true single)
  refine ⟨tr, c, w, session, run, granted, ?_⟩
  intro clear
  have closed := clear.closed 0 t (by rw [tasks]; rfl) (congrArg Prod.fst here)
  have opened : t.locals.boughtAt = some 0 := congrArg Prod.snd here
  rw [opened] at closed
  cases closed

end HadesPsTrader.Tasks
