/- Module: HadesPsTrader/Runs/SessionEvents
   source: src/main.rs, src/session.rs
   digest: Each session of graduation mode belongs to one migration, whose name it may look up. -/

import HadesPsTrader.Interaction.History
import HadesPsTrader.Runs.Graduation
import HadesPsTrader.Runs.SessionPieces
import HadesPsTrader.Runs.SessionWalk

set_option autoImplicit false
set_option relaxedAutoImplicit false

namespace HadesPsTrader.Tasks

open HadesPsTrader.Market HadesPsTrader.Chain HadesPsTrader.Interaction

def migrations (tr : GradTrace) : List MigrationEvent :=
  tr.filterMap fun x => match x.2 with
    | .env (.migrate ev) => some ev
    | _ => none

section Trace

variable {tr : GradTrace} {w : World} {e : GradLabel}

theorem migrations_migrate {ev : MigrationEvent} :
    migrations (tr ++ [(w, .env (.migrate ev))]) = migrations tr ++ [ev] := by
  simp [migrations]

theorem migrations_aside (aside : ∀ ev, e ≠ .env (.migrate ev)) :
    migrations (tr ++ [(w, e)]) = migrations tr := by
  rw [migrations, List.filterMap_append]
  cases e with
  | perform i l o r => exact List.append_nil _
  | unroll i => exact List.append_nil _
  | env x =>
      cases x with
      | migrate ev => exact absurd rfl (aside ev)
      | _ => exact List.append_nil _

theorem migrations_grows {tr' : GradTrace} (longer : tr <+: tr') :
    migrations tr <+: migrations tr' := by
  obtain ⟨more, rfl⟩ := longer
  rw [migrations, migrations, List.filterMap_append]
  exact List.prefix_append _ _

end Trace

/-- A look-up of the name and the symbol of a mint, with its answer. -/
abbrev Lookup := Pubkey × Except String (String × String)

def lookupOf : (o : Op) → Reply o → Option Lookup
  | .fetchTokenMetadata mint, answer => some (mint, answer)
  | _, _ => none

def lookups (i : Nat) (ops : List (Nat × Sigma Reply)) : List Lookup :=
  ops.filterMap fun x => if x.1 = i then lookupOf x.2.1 x.2.2 else none

namespace MigrationEvent

/-- The mint to look up: that of an event without a symbol, if it parses. -/
def missing (ev : MigrationEvent) : Option Pubkey :=
  if ev.symbol = none then Pubkey.fromStr ev.mint else none

/-- The event with the name and the symbol that its look-up was answered. -/
def named (ev : MigrationEvent) : List Lookup → MigrationEvent
  | [(_, .ok (name, symbol))] => { ev with name := some name, symbol := some symbol }
  | _ => ev

end MigrationEvent

/-- A session of a migration, with its look-ups so far. -/
structure Stems (ev : MigrationEvent) (looked : List Lookup) (t : TaskProc SessionLocals) :
    Prop where
  /-- It looks up what is missing, at most once. -/
  asked : looked.map Prod.fst <+: ev.missing.toList
  /-- It does so before anything else. -/
  first : ∀ l o resume, t = .op l o resume → (∀ mint, o ≠ .fetchTokenMetadata mint) →
    looked.map Prod.fst = ev.missing.toList
  /-- It does not return without it. -/
  ended : t.finished = true → looked.map Prod.fst = ev.missing.toList
  /-- Its name and its symbol are those of the migration, or the answer. -/
  event : t.locals.event = ev.named looked

/-- The discipline of a session that belongs to a migration: the look-up comes first. -/
def naming (ev : MigrationEvent) : Protocol (List Lookup) World SessionLocals Op Reply where
  coherent looked l := looked.map Prod.fst <+: ev.missing.toList ∧ l.event = ev.named looked
  guard looked _ o := (∀ mint, o ≠ .fetchTokenMetadata mint) →
    looked.map Prod.fst = ev.missing.toList
  valid _ _ _ _ _ := True
  next looked _ _ o r := looked ++ (lookupOf o r).toList

structure Settled (ev : MigrationEvent) (looked : List Lookup) (l : SessionLocals) : Prop where
  asked : looked.map Prod.fst = ev.missing.toList
  event : l.event = ev.named looked

section Walk

variable {cfg : Market.Config} {dryRun : Bool} {mint : Pubkey} {ev : MigrationEvent} {α : Type}
  {looked : List Lookup} {l : SessionLocals}

theorem Settled.coherent (settled : Settled ev looked l) : (naming ev).coherent looked l := by
  refine ⟨?_, settled.event⟩
  rw [settled.asked]

/-- A computation behind the look-up. -/
abbrev Belongs (ev : MigrationEvent) (m : SessionM α) : Prop :=
  Async.Keeps (naming ev) (Settled ev) m

theorem belongs_perform {o : Op} (quiet : ∀ r, lookupOf o r = none) :
    Belongs ev (Async.perform o : SessionM (Reply o)) := by
  apply Async.Keeps.perform
  · exact fun _ _ settled => settled.coherent
  · exact fun _ _ settled _ => settled.asked
  · intro looked w l r settled _
    change Settled ev (looked ++ (lookupOf o r).toList) l
    rw [quiet r, Option.toList_none, List.append_nil]
    exact settled

theorem belongs_assign {u : SessionLocals → SessionLocals} (same : ∀ l, (u l).event = l.event) :
    Belongs ev (Async.assign u : SessionM Unit) := by
  apply Async.Keeps.assign
  intro looked l settled
  exact ⟨settled.asked, (same l).trans settled.event⟩

theorem belongs_of_steady {m : SessionM α} (calm : ∀ looked, Async.Steady World
    (fun o => ∀ r, lookupOf o r = none) (Settled ev looked) m) : Belongs ev m := by
  apply Async.Steady.keeps calm
  · exact fun _ _ settled => settled.coherent
  · exact fun _ _ _ settled _ _ => settled.asked
  · intro looked w l o r quiet
    change looked ++ (lookupOf o r).toList = looked
    rw [quiet r, Option.toList_none, List.append_nil]

theorem trading_quiet (o : Op) (trading : o.isTrading = true) (r : Reply o) :
    lookupOf o r = none := by
  cases o with
  | fetchTokenMetadata mint => cases trading
  | _ => rfl

theorem settled_aside (l l' : SessionLocals) (same : l'.untraded = l.untraded)
    (settled : Settled ev looked l) : Settled ev looked l' := by
  have event : l'.untraded.event = l.untraded.event := congrArg SessionLocals.event same
  have event : l'.event = l.event := event
  exact ⟨settled.asked, event.trans settled.event⟩

theorem sellForGood_belongs {pct : Position → ℚ} {reason : SellReason} :
    Belongs ev (sellForGood cfg dryRun pct reason) := by
  apply belongs_of_steady
  intro looked
  apply sellForGood_steady _ settled_aside
  · exact fun _ => rfl
  · intro o unwinding _
    exact trading_quiet o (isTrading_of_isUnwinding o unwinding)

theorem onTick_belongs {u : PriceUpdate} : Belongs ev (onTick cfg dryRun mint u) := by
  apply Async.Keeps.bind
  · exact belongs_assign fun _ => rfl
  intro _
  apply Async.Keeps.bind
  · exact .locals
  intro l
  split
  · apply Async.Keeps.bind
    · exact sellForGood_belongs
    intro _
    exact .pure _
  · apply Async.Keeps.bind
    · apply belongs_of_steady
      intro looked
      apply pnlExit_steady _ settled_aside
      intro o unwinding _
      exact trading_quiet o (isTrading_of_isUnwinding o unwinding)
    intro _
    apply Async.Keeps.bind
    · exact belongs_perform fun _ => rfl
    intro now
    apply entries_chart
    · rintro looked l l' ⟨_, _, _, _, rfl⟩ settled
      exact ⟨settled.asked, settled.event⟩
    · intro now trigger
      apply belongs_of_steady
      intro looked
      exact gatedEntry_steady (fun o trading _ => trading_quiet o trading) settled_aside
        fun _ => rfl

theorem opening_belongs (o : Op) (opening : o.isOpening = true) :
    Belongs ev (Async.perform o : SessionM (Reply o)) := by
  apply belongs_perform
  intro r
  cases o with
  | fetchTokenMetadata mint => cases opening
  | _ => rfl

theorem handle_belongs : Belongs ev (handle cfg dryRun) := by
  apply handle_keeps opening_belongs
  intro mint
  apply runSession_keeps opening_belongs
  · exact fun _ _ settled => settled.coherent
  · exact fun _ => belongs_assign fun _ => rfl
  · apply sessionRound_keeps
    · exact belongs_perform fun _ => rfl
    · exact fun _ => onTick_belongs
  · exact fun _ => sellForGood_belongs

theorem sessionTask_belongs (now : Instant) :
    Proc.wp (naming ev) (sessionTask cfg dryRun (.start cfg ev now))
      (fun looked l _ => Settled ev looked l) [] := by
  change Async.wp (naming ev) (sessionTask cfg dryRun) (fun looked l _ => Settled ev looked l) []
    (.start cfg ev now)
  rw [sessionTask, Async.wp_locals_bind]
  split
  · next mint unnamed parsed =>
      have unnamed : ev.symbol = none := unnamed
      have missing : ev.missing = some mint := by
        rw [MigrationEvent.missing, if_pos unnamed]
        exact parsed
      apply Async.wp_step
      · exact ⟨List.nil_prefix, rfl⟩
      · exact fun other => absurd rfl (other mint)
      intro w looked _
      have asked : List.map Prod.fst [(mint, looked)] = ev.missing.toList := by
        rw [missing]
        rfl
      cases looked with
      | error e => exact handle_belongs _ _ ⟨asked, rfl⟩
      | ok found =>
          rw [Async.wp_bind]
          exact handle_belongs _ _ ⟨asked, rfl⟩
  · next other =>
      have missing : ev.missing = none := by
        rw [MigrationEvent.missing]
        split_ifs with unnamed
        · cases parsed : Pubkey.fromStr ev.mint with
          | none => rfl
          | some mint => exact absurd parsed (other mint unnamed)
        · rfl
      apply handle_belongs _ _ ⟨?_, rfl⟩
      rw [missing]
      rfl

end Walk

section Runs

variable {cfg : Market.Config} {dryRun : Bool} {start : Instant} {admits : GradAdmit}
  {tr : GradTrace} {c : GradConfig}

theorem tasks_of_run (run : GradRun cfg dryRun start admits tr c) :
    c.tasks.length = (migrations tr).length := by
  apply run.invariant fun tr c => c.tasks.length = (migrations tr).length
  · rfl
  intro tr c e c' _ before _ moved
  cases moved with
  | perform pending granted =>
      rw [migrations_aside (by simp), List.length_set]
      exact before
  | unroll pending =>
      rw [migrations_aside (by simp), List.length_set]
      exact before
  | @env e w' ts granted =>
      rcases graduation_env_cases granted with ⟨ev, rfl, _, rfl⟩ | ⟨moved, rfl⟩
      · rw [migrations_migrate, List.length_append, List.length_append, before]
        rfl
      · rw [List.append_nil, migrations_aside, before]
        rintro ev label
        cases label
        cases moved

theorem migrations_still {tr' : GradTrace} {w w' : World} {ts : List (TaskProc SessionLocals)}
    (before : GradRun cfg dryRun start admits tr ⟨w, ts⟩)
    (after : GradRun cfg dryRun start admits tr' ⟨w', ts⟩) (longer : tr <+: tr') :
    migrations tr' = migrations tr := by
  have first : ts.length = (migrations tr).length := tasks_of_run before
  have second : ts.length = (migrations tr').length := tasks_of_run after
  exact ((migrations_grows longer).eq_of_length (first.symm.trans second)).symm

theorem lookups_unspawned (run : GradRun cfg dryRun start admits tr c) {i : Nat}
    (new : c.tasks.length ≤ i) : Interaction.events i lookupOf tr = [] := by
  have noted : ghost (reporting World lookupOf fun _ _ => True) [] i tr =
      Interaction.events i lookupOf tr := ghost_reporting i tr
  rw [← noted]
  exact Run.ghost_unspawned _ _ run i new

/-- The sessions belong to the migrations in their order. -/
theorem session_events (run : GradRun cfg dryRun start admits tr c) {i : Nat}
    {t : TaskProc SessionLocals} (here : c.tasks[i]? = some t) :
    ∃ ev, (migrations tr)[i]? = some ev ∧ Stems ev (Interaction.events i lookupOf tr) t := by
  have kept : ∀ (i : Nat) t, c.tasks[i]? = some t → ∃ ev, (migrations tr)[i]? = some ev ∧
      Proc.wp (naming ev) t (fun looked l _ => Settled ev looked l)
        (Interaction.events i lookupOf tr) := by
    refine run.each (fun tr i t => ∃ ev, (migrations tr)[i]? = some ev ∧
      Proc.wp (naming ev) t (fun looked l _ => Settled ev looked l)
        (Interaction.events i lookupOf tr)) ?_ ?_ ?_ ?_ ?_
    · intro i t none_yet
      cases none_yet
    · rintro tr c i l o r w' resume before pending ⟨ev, event, kept⟩ _ granted
      refine ⟨ev, ?_, ?_⟩
      · rw [migrations_aside (by simp)]
        exact event
      · rw [events_self]
        exact kept.2.2 c.shared r trivial
    · rintro tr c i β l body exit before pending ⟨ev, event, kept⟩
      refine ⟨ev, ?_, ?_⟩
      · rw [migrations_aside (by simp)]
        exact event
      · rw [events_unroll]
        exact Proc.wp_unroll kept
    · intro tr c e w' ts before granted i t new here
      rcases graduation_env_cases granted with ⟨ev, rfl, _, rfl⟩ | ⟨_, rfl⟩
      · obtain ⟨only, same⟩ := List.getElem?_eq_some_iff.mp here
        have first : i = c.tasks.length := by
          have one : i - c.tasks.length < 1 := only
          omega
        refine ⟨ev, ?_, ?_⟩
        · rw [migrations_migrate, first, tasks_of_run before, List.getElem?_concat_length]
        · rw [events_env, lookups_unspawned before new]
          subst first
          rw [Nat.sub_self] at here
          cases here
          exact sessionTask_belongs c.shared.clock
      · cases here
    · rintro tr w e i t aside ⟨ev, event, kept⟩
      obtain ⟨more, grown⟩ := migrations_grows (List.prefix_append tr [(w, e)])
      refine ⟨ev, ?_, ?_⟩
      · rw [← grown]
        have old : i < (migrations tr).length := (List.getElem?_eq_some_iff.mp event).1
        rw [List.getElem?_append_left old]
        exact event
      · rw [events_aside aside]
        exact kept
  obtain ⟨ev, event, wp⟩ := kept i t here
  have stands : (naming ev).coherent (Interaction.events i lookupOf tr) t.locals :=
    Proc.coherent_of_wp wp fun _ _ _ settled => settled.coherent
  refine ⟨ev, event, stands.1, ?_, ?_, stands.2⟩
  · rintro l o resume rfl
    exact wp.2.1
  · intro finished
    obtain ⟨_, settled⟩ := Proc.returned_of_finished wp finished
    exact settled.asked

end Runs

end HadesPsTrader.Tasks
