/- Module: HadesPsTrader/Runs/Graduation
   source: src/main.rs, src/session.rs
   digest: Runs of the bot in graduation mode, with the diary of each session. -/

import HadesPsTrader.Runs.SessionDiscipline
import HadesPsTrader.Runs.WorldSteps

set_option autoImplicit false
set_option relaxedAutoImplicit false

namespace HadesPsTrader.Tasks

open HadesPsTrader.Market HadesPsTrader.Chain HadesPsTrader.Interaction

abbrev GradConfig := Interaction.Config World SessionLocals Op Reply

abbrev GradTrace := Trace World SessionLocals Op Reply Env

abbrev GradLabel := Label SessionLocals Op Reply Env

abbrev GradAdmit := GradTrace → GradConfig → GradLabel → Prop

section Runs

variable (cfg : Market.Config) (dryRun : Bool)

abbrev GradRun (start : Instant) (admits : GradAdmit) (tr : GradTrace) (c : GradConfig) : Prop :=
  Run (graduation cfg dryRun) admits (graduationStart cfg start) tr c

def diary (i : Nat) (tr : GradTrace) : SessionDiary :=
  ghost (sessionProtocol cfg dryRun) {} i tr

variable {cfg dryRun} {start : Instant} {admits : GradAdmit} {tr : GradTrace} {c c' : GradConfig}
  {e : GradLabel}

section Diary

variable {i j : Nat} {w : World} {l : SessionLocals} {o : Op} {r : Reply o}

theorem diary_self : diary cfg dryRun i (tr ++ [(w, .perform i l o r)]) =
    (diary cfg dryRun i tr).next cfg dryRun w l o r :=
  ghost_perform_self i tr w l o r

theorem diary_other (other : j ≠ i) : diary cfg dryRun i (tr ++ [(w, .perform j l o r)]) =
    diary cfg dryRun i tr :=
  ghost_perform_other other tr w l o r

theorem diary_unroll : diary cfg dryRun i (tr ++ [(w, .unroll j)]) = diary cfg dryRun i tr :=
  ghost_unroll i j tr w

theorem diary_env (e : Env) : diary cfg dryRun i (tr ++ [(w, .env e)]) = diary cfg dryRun i tr :=
  ghost_env i tr w e

end Diary

theorem step_clock (moved : Step (graduation cfg dryRun) c e c') :
    c.shared.clock ≤ c'.shared.clock := by
  cases moved with
  | perform pending granted => exact (World.perform_clock granted).1.ge
  | unroll pending => exact le_refl _
  | env granted => exact graduation_env_clock granted

theorem diary_seen_le (run : GradRun cfg dryRun start admits tr c) (i : Nat) :
    (diary cfg dryRun i tr).seen ≤ c.shared.clock := by
  apply run.watched (sessionProtocol cfg dryRun) {} i fun g w => g.seen ≤ w.clock
  · exact Nat.zero_le _
  · intro g w w' l o r _ granted
    have granted : w.perform i o r = some w' := granted
    exact (World.perform_clock granted).1.ge
  · intro g c e c' before moved
    exact before.trans (step_clock moved)

theorem graduation_protocol {G : Type} (P : Protocol G World SessionLocals Op Reply)
    (Q : G → SessionLocals → Unit → Prop) (g₀ : G)
    (sessions : ∀ ev now, Proc.wp P (sessionTask cfg dryRun (.start cfg ev now)) Q g₀)
    (valid : ∀ {tr c}, GradRun cfg dryRun start admits tr c → ∀ {i l o r w'},
      c.shared.perform i o r = some w' → P.valid (ghost P g₀ i tr) c.shared l o r)
    (run : GradRun cfg dryRun start admits tr c) :
    ∀ i t, c.tasks[i]? = some t → Proc.wp P t Q (ghost P g₀ i tr) := by
  refine Run.protocol P Q g₀ ?_ ?_ ?_ run
  · intro t spawned
    cases spawned
  · intro s e s' ts granted t spawned
    rcases graduation_env_cases granted with ⟨ev, _, _, rfl⟩ | ⟨_, rfl⟩
    · cases List.mem_singleton.mp spawned
      exact sessions ev s.clock
    · cases spawned
  · intro tr c before i l o r s' resume _ _ _ _ granted
    exact valid before granted

theorem sessions_keep (run : GradRun cfg dryRun start admits tr c) {i : Nat}
    {t : TaskProc SessionLocals} (here : c.tasks[i]? = some t) :
    Proc.wp (sessionProtocol cfg dryRun) t (fun g l _ => Ended g l) (diary cfg dryRun i tr) := by
  refine graduation_protocol (sessionProtocol cfg dryRun) _ {} keeps_sessionTask ?_ run i t here
  · intro tr c before i l o r w' granted
    have seen := diary_seen_le before i
    cases o with
    | now site => exact ⟨seen, (World.perform_now.mp granted).1⟩
    | _ => exact seen

theorem session_coherent (run : GradRun cfg dryRun start admits tr c) {i : Nat}
    {t : TaskProc SessionLocals} (here : c.tasks[i]? = some t) :
    Coherent (diary cfg dryRun i tr) t.locals :=
  Proc.coherent_of_wp (sessions_keep run here) fun _ _ _ ended => ended.coherent

theorem session_stands (run : GradRun cfg dryRun start admits tr c) {i : Nat} {l : SessionLocals}
    {o : Op} {resume : Reply o → TaskProc SessionLocals}
    (here : c.tasks[i]? = some (.op l o resume)) : Coherent (diary cfg dryRun i tr) l :=
  session_coherent run here

theorem session_permits (run : GradRun cfg dryRun start admits tr c) {i : Nat} {l : SessionLocals}
    {o : Op} {resume : Reply o → TaskProc SessionLocals}
    (here : c.tasks[i]? = some (.op l o resume)) : Permits cfg (diary cfg dryRun i tr) l o :=
  (sessions_keep run here).2.1

theorem session_ended (run : GradRun cfg dryRun start admits tr c) {i : Nat}
    {t : TaskProc SessionLocals} (here : c.tasks[i]? = some t) (finished : t.finished = true) :
    Ended (diary cfg dryRun i tr) t.locals := by
  obtain ⟨_, ended⟩ := Proc.returned_of_finished (sessions_keep run here) finished
  exact ended

end Runs

/-! ### Scripted runs -/

/-- Session `i` starts, finds its pool and sees four ticks. -/
def warmUp (i : Nat) : List BotMove :=
  [.env (.migrate ⟨someMint, none, some "TOKEN"⟩)] ++ go readyNet i 3 ++
    [.env (.feed i .discovered)] ++
    ([2, 1, 1, 1].map fun p => price i p 10 ++ go readyNet i 3).flatten

/-- One more tick of session `i`, which then goes on for `n` steps after the price is read. -/
def buyTick (net : Network) (i n : Nat) : List BotMove := price i 1 10 ++ go net i (n + 3)

end HadesPsTrader.Tasks
