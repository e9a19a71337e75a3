/- Module: HadesPsTrader/Runs/CopyMode
   source: src/main.rs, src/copy_session.rs
   digest: Runs of the bot in copy mode, with the diary of each copy session. -/

import HadesPsTrader.Runs.CopyDiscipline
import HadesPsTrader.Runs.WorldSteps

set_option autoImplicit false
set_option relaxedAutoImplicit false

namespace HadesPsTrader.Tasks

open HadesPsTrader.Market HadesPsTrader.Chain HadesPsTrader.Interaction

section Steps

variable {cfg : Market.Config} {dryRun : Bool} {w w' : World} {e : Env}
  {ts : List (TaskProc CopyLocals)}

theorem copyMode_exec {i : Nat} {l : CopyLocals} {o : Op} {r : Reply o}
    (h : (copyMode cfg dryRun).exec w i l o r = some w') : w.perform i o r = some w' := by
  simp only [copyMode] at h
  split at h
  · cases h
  · exact h

theorem gateFrame_cases (w : World) (cc : CopyTradeConfig) (t : AlphaTrade) (pause : Duration) :
    w.clock ≤ (w.gateFrame cc t pause).1.clock ∧
      (w.gateFrame cc t pause).1.tracker = w.tracker ∧
      ((w.gateFrame cc t pause).2 = true →
        (∀ last, w.recent t.mint = some last →
          fromSecs cc.reentryCooldownSecs ≤ (w.gateFrame cc t pause).1.clock - last) ∧
        (w.gateFrame cc t pause).1.recent =
          Function.update w.recent t.mint (some (w.gateFrame cc t pause).1.clock)) ∧
      ((w.gateFrame cc t pause).2 = false →
        (w.gateFrame cc t pause).1.recent = w.recent) := by
  simp only [World.gateFrame]
  split_ifs with wallet mint
  · exact ⟨le_refl _, rfl, nofun, fun _ => rfl⟩
  · exact ⟨Nat.le_add_right _ _, rfl, nofun, fun _ => rfl⟩
  · refine ⟨Nat.le_add_right _ _, rfl, fun _ => ⟨fun last here => ?_, rfl⟩, nofun⟩
    rw [here, Option.any_some, decide_eq_true_eq, not_lt] at mint
    exact mint

theorem gateFrame_wallet (w : World) (cc : CopyTradeConfig) (t : AlphaTrade) (pause : Duration) :
    ((w.gateFrame cc t pause).2 = false ∧
      (w.gateFrame cc t pause).1.recentWallet = w.recentWallet) ∨
    ((∀ last, w.recentWallet t.trader = some last →
        fromSecs cc.perWalletCooldownSecs ≤ w.clock - last) ∧
      (w.gateFrame cc t pause).1.recentWallet =
        Function.update w.recentWallet t.trader (some w.clock)) := by
  have cooled (wallet : ¬ ((w.recentWallet t.trader).any fun last =>
      decide (durationSince w.clock last < fromSecs cc.perWalletCooldownSecs)) = true)
      (last : Instant) (here : w.recentWallet t.trader = some last) :
      fromSecs cc.perWalletCooldownSecs ≤ w.clock - last := by
    rw [here, Option.any_some, decide_eq_true_eq, not_lt] at wallet
    exact wallet
  simp only [World.gateFrame]
  split_ifs with wallet
  · exact .inl ⟨rfl, rfl⟩
  · exact .inr ⟨cooled wallet, rfl⟩
  · exact .inr ⟨cooled wallet, rfl⟩

theorem gateFrame_clock (w : World) (cc : CopyTradeConfig) (t : AlphaTrade) (pause : Duration)
    (passed : (w.gateFrame cc t pause).2 = true) :
    (w.gateFrame cc t pause).1.clock = w.clock + pause := by
  revert passed
  simp only [World.gateFrame]
  split_ifs
  · exact nofun
  · exact nofun
  · exact fun _ => rfl

theorem gateFrame_rest (w : World) (cc : CopyTradeConfig) (t : AlphaTrade) (pause : Duration) :
    ∃ clock recent recentWallet, (w.gateFrame cc t pause).1 =
      { w with clock := clock, recent := recent, recentWallet := recentWallet } := by
  simp only [World.gateFrame]
  split_ifs
  · exact ⟨_, _, _, rfl⟩
  · exact ⟨_, _, _, rfl⟩
  · exact ⟨_, _, _, rfl⟩

inductive CopyMoves (cfg : Market.Config) (dryRun : Bool) (w : World) :
    Env → World → List (TaskProc CopyLocals) → Prop
  /-- A sell is fanned out to the sessions that have subscribed. -/
  | fanned {t : AlphaTrade} {pause : Duration} (running : w.main = .running)
      (sell : t.txType = "sell") : CopyMoves cfg dryRun w (.frame t pause) { w with
        mirror := fun i =>
          if i < w.spawned then (w.mirror i).push sellCapacity t else w.mirror i } []
  | skipped {t : AlphaTrade} {pause : Duration} (running : w.main = .running)
      (other : t.txType ≠ "sell") : CopyMoves cfg dryRun w (.frame t pause) w []
  | refused {t : AlphaTrade} {pause : Duration} (running : w.main = .running)
      (buy : t.txType = "buy") (gate : (w.gateFrame cfg.copyTrade t pause).2 = false) :
      CopyMoves cfg dryRun w (.frame t pause) (w.gateFrame cfg.copyTrade t pause).1 []
  | entered {t : AlphaTrade} {pause : Duration} (running : w.main = .running)
      (buy : t.txType = "buy") (pumpswap : t.isPumpswap = true)
      (gate : (w.gateFrame cfg.copyTrade t pause).2 = true) :
      CopyMoves cfg dryRun w (.frame t pause) { (w.gateFrame cfg.copyTrade t pause).1 with
        spawned := (w.gateFrame cfg.copyTrade t pause).1.spawned + 1 }
        [copyHandle cfg dryRun { alpha := t }]
  | signalled (running : w.main = .running) : CopyMoves cfg dryRun w .shutdownSignal { w with
        main := .draining drainChecks
        shutdown := fun i =>
          if i < w.spawned then (w.shutdown i).push shutdownCapacity () else w.shutdown i } []
  | drained {checks : Nat} (draining : w.main = .draining (checks + 1))
      (empty : w.openPositions = 0) :
      CopyMoves cfg dryRun w .drainCheck { w with main := .draining 0 } []
  | waited {checks : Nat} (draining : w.main = .draining (checks + 1))
      (busy : w.openPositions ≠ 0) :
      CopyMoves cfg dryRun w .drainCheck { w with main := .draining checks } []
  | exited (draining : w.main = .draining 0) :
      CopyMoves cfg dryRun w .drainCheck { w with main := .exited w.openPositions } []
  | background {e : Env} {w' : World} (alive : ∀ left, w.main ≠ .exited left)
      (moved : w.background e = some w') : CopyMoves cfg dryRun w e w' []

theorem copyMode_moves (h : (copyMode cfg dryRun).env w e = some (w', ts)) :
    CopyMoves cfg dryRun w e w' ts := by
  have back (alive : ∀ left, w.main ≠ .exited left)
      (h : (w.background e).map (fun w' => (w', [])) = some (w', ts)) :
      CopyMoves cfg dryRun w e w' ts := by
    obtain ⟨w'', moved, same⟩ := Option.map_eq_some_iff.mp h
    cases same
    exact .background alive moved
  simp only [copyMode] at h
  split at h
  · cases h
  · next running =>
      split at h
      · next t pause =>
          split_ifs at h with sell buy pumpswap
          · cases h
            exact .fanned running sell
          · cases h
            exact .skipped running sell
          · cases h
            exact .skipped running sell
          · split at h
            · next w₁ gate =>
                cases h
                have passed : CopyMoves cfg dryRun w (.frame t pause) _ _ :=
                  .entered running (not_not.mp buy) (by simpa using pumpswap) (by rw [gate])
                rw [gate] at passed
                exact passed
            · next w₁ gate =>
                cases h
                have stopped : CopyMoves cfg dryRun w (.frame t pause) _ _ :=
                  .refused running (not_not.mp buy) (by rw [gate])
                rw [gate] at stopped
                exact stopped
      · cases h
        exact .signalled running
      · exact back (by simp [running]) h
  · next checks draining =>
      split at h
      · split at h
        · cases h
          exact .exited draining
        · split_ifs at h with empty
          · cases h
            exact .drained draining empty
          · cases h
            exact .waited draining empty
      · exact back (by simp [draining]) h

theorem copyMode_env_cases (h : (copyMode cfg dryRun).env w e = some (w', ts)) :
    (∃ t pause, e = .frame t pause ∧ (w.gateFrame cfg.copyTrade t pause).2 = true ∧
      w' = { (w.gateFrame cfg.copyTrade t pause).1 with
        spawned := (w.gateFrame cfg.copyTrade t pause).1.spawned + 1 } ∧
      ts = [copyHandle cfg dryRun { alpha := t }]) ∨
    (ts = [] ∧ w.clock ≤ w'.clock ∧ w'.tracker = w.tracker ∧ w'.recent = w.recent) := by
  cases copyMode_moves h with
  | entered _ _ _ gate => exact .inl ⟨_, _, rfl, gate, rfl, rfl⟩
  | refused _ _ gate =>
      obtain ⟨later, tracker, _, kept⟩ := gateFrame_cases w cfg.copyTrade _ _
      exact .inr ⟨rfl, later, tracker, kept gate⟩
  | background _ moved =>
      rcases World.background_cases moved with ⟨d, _, rfl⟩ | ⟨i, x, f, _, _, rfl⟩
      · exact .inr ⟨rfl, Nat.le_add_right _ _, rfl, rfl⟩
      · exact .inr ⟨rfl, le_refl _, rfl, rfl⟩
  | _ => exact .inr ⟨rfl, le_refl _, rfl, rfl⟩

theorem copyMode_env_common (h : (copyMode cfg dryRun).env w e = some (w', ts)) :
    w.clock ≤ w'.clock ∧ w'.tracker = w.tracker := by
  rcases copyMode_env_cases h with ⟨t, pause, _, _, rfl, _⟩ | ⟨_, later, tracker, _⟩
  · obtain ⟨later, tracker, _⟩ := gateFrame_cases w cfg.copyTrade t pause
    exact ⟨later, tracker⟩
  · exact ⟨later, tracker⟩

end Steps

abbrev CopyConfig := Interaction.Config World CopyLocals Op Reply

abbrev CopyTrace := Trace World CopyLocals Op Reply Env

abbrev CopyLabel := Label CopyLocals Op Reply Env

abbrev CopyAdmit := CopyTrace → CopyConfig → CopyLabel → Prop

section Runs

variable (cfg : Market.Config) (dryRun : Bool)

/-- Runs of copy mode from the start of the bot at some clock reading. -/
abbrev CopyRun (start : Instant) (admits : CopyAdmit) (tr : CopyTrace) (c : CopyConfig) : Prop :=
  Run (copyMode cfg dryRun) admits (copyStart cfg start) tr c

def copyDiary (i : Nat) (tr : CopyTrace) : CopyDiary := ghost (copyProtocol cfg dryRun) {} i tr

variable {cfg dryRun} {start : Instant} {admits : CopyAdmit} {tr : CopyTrace} {c c' : CopyConfig}
  {e : CopyLabel}

theorem copy_step_clock (moved : Step (copyMode cfg dryRun) c e c') :
    c.shared.clock ≤ c'.shared.clock := by
  cases moved with
  | perform pending granted => exact (World.perform_clock (copyMode_exec granted)).1.ge
  | unroll pending => exact le_refl _
  | env granted => exact (copyMode_env_common granted).1

theorem copy_spawned (run : CopyRun cfg dryRun start admits tr c) :
    c.shared.spawned = c.tasks.length := by
  apply run.invariant (fun _ c => c.shared.spawned = c.tasks.length)
  · rfl
  intro tr c e c' _ numbered _ moved
  cases moved with
  | perform pending granted =>
      rw [List.length_set, ← numbered]
      exact (World.perform_clock (copyMode_exec granted)).2.1
  | unroll pending =>
      rw [List.length_set]
      exact numbered
  | env granted =>
      rw [List.length_append, ← numbered]
      cases copyMode_moves granted with
      | refused running buy gate =>
          obtain ⟨clock, recent, recentWallet, rest⟩ := gateFrame_rest c.shared cfg.copyTrade _ _
          rw [rest]
          rfl
      | entered running buy pumpswap gate =>
          obtain ⟨clock, recent, recentWallet, rest⟩ := gateFrame_rest c.shared cfg.copyTrade _ _
          rw [rest]
          rfl
      | background alive moved =>
          rcases World.background_cases moved with ⟨d, _, rfl⟩ | ⟨j, x, f, _, _, rfl⟩
          · rfl
          · rfl
      | _ => rfl

theorem copyDiary_seen_le (run : CopyRun cfg dryRun start admits tr c) (i : Nat) :
    (copyDiary cfg dryRun i tr).seen ≤ c.shared.clock := by
  apply run.watched (copyProtocol cfg dryRun) {} i fun g w => g.seen ≤ w.clock
  · exact Nat.zero_le _
  · intro g w w' l o r _ granted
    exact (World.perform_clock (copyMode_exec granted)).1.ge
  · intro g c e c' before moved
    exact before.trans (copy_step_clock moved)

theorem copy_protocol {G : Type} (P : Protocol G World CopyLocals Op Reply)
    (Q : G → CopyLocals → Unit → Prop) (g₀ : G)
    (sessions : ∀ alpha, Proc.wp P (copyHandle cfg dryRun { alpha := alpha }) Q g₀)
    (valid : ∀ {tr c}, CopyRun cfg dryRun start admits tr c → ∀ {i l o r w'},
      c.shared.perform i o r = some w' → P.valid (ghost P g₀ i tr) c.shared l o r)
    (run : CopyRun cfg dryRun start admits tr c) :
    ∀ i t, c.tasks[i]? = some t → Proc.wp P t Q (ghost P g₀ i tr) := by
  refine Run.protocol P Q g₀ ?_ ?_ ?_ run
  · intro t spawned
    cases spawned
  · intro s e s' ts granted t spawned
    rcases copyMode_env_cases granted with ⟨alpha, _, _, _, _, rfl⟩ | ⟨rfl, _⟩
    · cases List.mem_singleton.mp spawned
      exact sessions alpha
    · cases spawned
  · intro tr c before i l o r s' resume _ _ _ _ granted
    exact valid before (copyMode_exec granted)

theorem copies_keep (run : CopyRun cfg dryRun start admits tr c) {i : Nat}
    {t : TaskProc CopyLocals} (here : c.tasks[i]? = some t) :
    Proc.wp (copyProtocol cfg dryRun) t (fun g l _ => CopyEnded g l)
      (copyDiary cfg dryRun i tr) := by
  refine copy_protocol (copyProtocol cfg dryRun) _ {} copyKeeps_copyHandle ?_ run i t here
  · intro tr c before i l o r w' granted
    have seen := copyDiary_seen_le before i
    cases o with
    | now site => exact ⟨seen, (World.perform_now.mp granted).1⟩
    | _ => exact seen

theorem copy_coherent (run : CopyRun cfg dryRun start admits tr c) {i : Nat}
    {t : TaskProc CopyLocals} (here : c.tasks[i]? = some t) (running : t.finished = false) :
    CopyCoherent (copyDiary cfg dryRun i tr) t.locals :=
  Proc.coherent_of_running (copies_keep run here) running

theorem copy_permits (run : CopyRun cfg dryRun start admits tr c) {i : Nat} {l : CopyLocals}
    {o : Op} {resume : Reply o → TaskProc CopyLocals}
    (here : c.tasks[i]? = some (.op l o resume)) :
    CopyPermits cfg (copyDiary cfg dryRun i tr) l o :=
  (copies_keep run here).2.1

theorem copy_ended (run : CopyRun cfg dryRun start admits tr c) {i : Nat}
    {t : TaskProc CopyLocals} (here : c.tasks[i]? = some t) (done : t.finished = true) :
    CopyEnded (copyDiary cfg dryRun i tr) t.locals := by
  obtain ⟨_, ended⟩ := Proc.returned_of_finished (copies_keep run here) done
  exact ended

theorem copy_flagged (run : CopyRun cfg dryRun start admits tr c) {i : Nat}
    {t : TaskProc CopyLocals} (here : c.tasks[i]? = some t) :
    Flagged (copyDiary cfg dryRun i tr) t.locals := by
  cases running : t.finished with
  | false => exact (copy_coherent run here running).flagged
  | true => exact (copy_ended run here running).flagged

end Runs

/-! ### Scripted runs -/

/-- A followed wallet trades a mint. -/
def alphaTrade (mint trader txType : String) : AlphaTrade where
  mint := mint
  trader := trader
  txType := txType
  isPumpswap := true
  symbol := some "TOKEN"
  tokenBalance := some 1

/-- The buy of a followed wallet is copied by session `i`, which then stands at its monitor loop. -/
def copyEntry (i : Nat) (trader : String) : List BotMove :=
  [.env (.frame (alphaTrade someMint trader "buy") 0)] ++ go readyNet i 10

end HadesPsTrader.Tasks
