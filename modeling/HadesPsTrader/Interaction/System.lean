/- Module: HadesPsTrader/Interaction/System
   layer: library
   digest: Interleaved runs of spawned processes over shared state, and their invariants. -/

import HadesPsTrader.Interaction.Protocol

set_option autoImplicit false
set_option relaxedAutoImplicit false

namespace HadesPsTrader.Interaction

variable {G S L Op Env : Type} {Reply : Op → Type}

/-- The meaning of operations on shared state. `exec` says whether the operation of a task may be
answered so, and the shared state after it; `env` gives the environment's own steps, which may
spawn tasks. -/
structure System (S L Op : Type) (Reply : Op → Type) (Env : Type) where
  exec : S → Nat → L → (o : Op) → Reply o → Option S
  env : S → Env → Option (S × List (Proc L Op Reply Unit))

/-- A snapshot of the system; tasks are numbered in the order they were spawned. -/
structure Config (S L Op : Type) (Reply : Op → Type) where
  shared : S
  tasks : List (Proc L Op Reply Unit)

/-- What one step did. -/
inductive Label (L Op : Type) (Reply : Op → Type) (Env : Type)
  | perform (i : Nat) (l : L) (o : Op) (r : Reply o)
  | unroll (i : Nat)
  | env (e : Env)

/-- The steps of a run in order, each with the shared state it started from. -/
abbrev Trace (S L Op : Type) (Reply : Op → Type) (Env : Type) :=
  List (S × Label L Op Reply Env)

/-- One atomic step: a task's operation is answered, a task goes round a loop, or the environment
moves. -/
inductive Step (M : System S L Op Reply Env) :
    Config S L Op Reply → Label L Op Reply Env → Config S L Op Reply → Prop
  | perform {c : Config S L Op Reply} {i : Nat} {l : L} {o : Op}
      {resume : Reply o → Proc L Op Reply Unit} {r : Reply o} {s' : S}
      (pending : c.tasks[i]? = some (.op l o resume))
      (granted : M.exec c.shared i l o r = some s') :
      Step M c (.perform i l o r) ⟨s', c.tasks.set i (resume r)⟩
  | unroll {c : Config S L Op Reply} {i : Nat} {β : Type} {l : L}
      {body : L → Proc L Op Reply (Option β)} {exit : L → β → Proc L Op Reply Unit}
      (pending : c.tasks[i]? = some (.loop l body exit)) :
      Step M c (.unroll i) ⟨c.shared, c.tasks.set i (Proc.unroll l body exit)⟩
  | env {c : Config S L Op Reply} {e : Env} {s' : S} {spawned : List (Proc L Op Reply Unit)}
      (granted : M.env c.shared e = some (s', spawned)) :
      Step M c (.env e) ⟨s', c.tasks ++ spawned⟩

/-- Runs whose every step is admitted, given the trace and the state before it. -/
inductive Run (M : System S L Op Reply Env)
    (admits : Trace S L Op Reply Env → Config S L Op Reply → Label L Op Reply Env → Prop)
    (c₀ : Config S L Op Reply) : Trace S L Op Reply Env → Config S L Op Reply → Prop
  | start : Run M admits c₀ [] c₀
  | step {tr : Trace S L Op Reply Env} {c c' : Config S L Op Reply}
      {e : Label L Op Reply Env} (before : Run M admits c₀ tr c) (admitted : admits tr c e)
      (moved : Step M c e c') : Run M admits c₀ (tr ++ [(c.shared, e)]) c'

theorem Label.own_or_aside (i : Nat) (e : Label L Op Reply Env) :
    (∃ l o r, e = .perform i l o r) ∨ ∀ l o r, e ≠ .perform i l o r := by
  by_cases own : ∃ l o r, e = .perform i l o r
  · exact .inl own
  · exact .inr fun l o r same => own ⟨l, o, r, same⟩

/-- The label of an operation of task `i` that `p` picks out. -/
def Label.performs (i : Nat) (p : Op → Bool) : Label L Op Reply Env → Bool
  | .perform j _ o _ => j = i && p o
  | .unroll _ => false
  | .env _ => false

/-- How many operations that `p` picks out task `i` performed. -/
def performed (i : Nat) (p : Op → Bool) (tr : Trace S L Op Reply Env) : Nat :=
  tr.countP fun x => x.2.performs i p

section Performed

variable {i j : Nat} {p : Op → Bool} {tr : Trace S L Op Reply Env} {s : S} {l : L} {o : Op}
  {r : Reply o}

theorem performed_self : performed i p (tr ++ [(s, .perform i l o r)]) =
    performed i p tr + if p o then 1 else 0 := by
  simp [performed, Label.performs, List.countP_cons]

theorem performed_other (other : j ≠ i) :
    performed i p (tr ++ [(s, .perform j l o r)]) = performed i p tr := by
  simp [performed, Label.performs, other]

theorem performed_unroll : performed i p (tr ++ [(s, .unroll j)]) = performed i p tr := by
  simp [performed, Label.performs]

theorem performed_env (e : Env) : performed i p (tr ++ [(s, .env e)]) = performed i p tr := by
  simp [performed, Label.performs]

theorem performed_aside {e : Label L Op Reply Env} (aside : ∀ l o r, e ≠ .perform i l o r) :
    performed i p (tr ++ [(s, e)]) = performed i p tr := by
  cases e with
  | perform j l o r =>
      apply performed_other
      rintro rfl
      exact aside l o r rfl
  | unroll j => exact performed_unroll
  | env e => exact performed_env e

end Performed

/-- What task `i` did, as far as `f` reports it. -/
def events {ε : Type} (i : Nat) (f : (o : Op) → Reply o → Option ε)
    (tr : Trace S L Op Reply Env) : List ε :=
  tr.filterMap fun x => match x.2 with
    | .perform j _ o r => if j = i then f o r else none
    | .unroll _ => none
    | .env _ => none

section Events

variable {ε : Type} {i j : Nat} {f : (o : Op) → Reply o → Option ε}
  {tr : Trace S L Op Reply Env} {s : S} {l : L} {o : Op} {r : Reply o}

theorem events_self : events i f (tr ++ [(s, .perform i l o r)]) =
    events i f tr ++ (f o r).toList := by
  cases h : f o r <;> simp [events, h]

theorem events_other (other : j ≠ i) :
    events i f (tr ++ [(s, .perform j l o r)]) = events i f tr := by
  simp [events, other]

theorem events_unroll : events i f (tr ++ [(s, .unroll j)]) = events i f tr := by
  simp [events]

theorem events_env (e : Env) : events i f (tr ++ [(s, .env e)]) = events i f tr := by
  simp [events]

theorem events_aside {e : Label L Op Reply Env} (aside : ∀ l o r, e ≠ .perform i l o r) :
    events i f (tr ++ [(s, e)]) = events i f tr := by
  cases e with
  | perform j l o r =>
      apply events_other
      rintro rfl
      exact aside l o r rfl
  | unroll j => exact events_unroll
  | env e => exact events_env e

end Events

def always : Trace S L Op Reply Env → Config S L Op Reply → Label L Op Reply Env → Prop :=
  fun _ _ _ => True

def ghost (P : Protocol G S L Op Reply) (g₀ : G) (i : Nat) (tr : Trace S L Op Reply Env) : G :=
  tr.foldl (fun g x => match x.2 with
    | .perform j l o r => if j = i then P.next g x.1 l o r else g
    | .unroll _ => g
    | .env _ => g) g₀

section Ghost

variable {P : Protocol G S L Op Reply} {g₀ : G}

@[simp] theorem ghost_nil (i : Nat) :
    ghost P g₀ i ([] : Trace S L Op Reply Env) = g₀ := rfl

theorem ghost_perform (i j : Nat) (tr : Trace S L Op Reply Env) (s : S) (l : L) (o : Op)
    (r : Reply o) : ghost P g₀ i (tr ++ [(s, .perform j l o r)]) =
      if j = i then P.next (ghost P g₀ i tr) s l o r else ghost P g₀ i tr := by
  simp [ghost, List.foldl_append]

@[simp] theorem ghost_perform_self (i : Nat) (tr : Trace S L Op Reply Env) (s : S) (l : L)
    (o : Op) (r : Reply o) : ghost P g₀ i (tr ++ [(s, .perform i l o r)]) =
      P.next (ghost P g₀ i tr) s l o r := by
  simp [ghost_perform]

theorem ghost_perform_other {i j : Nat} (other : j ≠ i) (tr : Trace S L Op Reply Env) (s : S)
    (l : L) (o : Op) (r : Reply o) :
    ghost P g₀ i (tr ++ [(s, .perform j l o r)]) = ghost P g₀ i tr := by
  simp [ghost_perform, other]

@[simp] theorem ghost_unroll (i j : Nat) (tr : Trace S L Op Reply Env) (s : S) :
    ghost P g₀ i (tr ++ [(s, .unroll j)]) = ghost P g₀ i tr := by
  simp [ghost, List.foldl_append]

@[simp] theorem ghost_env (i : Nat) (tr : Trace S L Op Reply Env) (s : S) (e : Env) :
    ghost P g₀ i (tr ++ [(s, .env e)]) = ghost P g₀ i tr := by
  simp [ghost, List.foldl_append]

theorem ghost_aside {i : Nat} {e : Label L Op Reply Env} (aside : ∀ l o r, e ≠ .perform i l o r)
    (tr : Trace S L Op Reply Env) (s : S) : ghost P g₀ i (tr ++ [(s, e)]) = ghost P g₀ i tr := by
  cases e with
  | perform j l o r =>
      apply ghost_perform_other
      rintro rfl
      exact aside l o r rfl
  | unroll j => exact ghost_unroll i j tr s
  | env e => exact ghost_env i tr s e

end Ghost

namespace Run

variable {M : System S L Op Reply Env} {c₀ c : Config S L Op Reply}
  {admits : Trace S L Op Reply Env → Config S L Op Reply → Label L Op Reply Env → Prop}
  {tr : Trace S L Op Reply Env}

theorem refine
    {admits' : Trace S L Op Reply Env → Config S L Op Reply → Label L Op Reply Env → Prop}
    (met : ∀ {tr c e c'}, Run M admits c₀ tr c → admits tr c e → Step M c e c' → admits' tr c e)
    (run : Run M admits c₀ tr c) : Run M admits' c₀ tr c := by
  induction run with
  | start => exact .start
  | step before admitted moved ih => exact .step ih (met before admitted moved) moved

/-- A property of the trace and the state that every step keeps holds after every run. -/
theorem invariant (I : Trace S L Op Reply Env → Config S L Op Reply → Prop)
    (initial : I [] c₀)
    (kept : ∀ {tr c e c'}, Run M admits c₀ tr c → I tr c → admits tr c e → Step M c e c' →
      I (tr ++ [(c.shared, e)]) c')
    (run : Run M admits c₀ tr c) : I tr c := by
  induction run with
  | start => exact initial
  | step before admitted moved ih => exact kept before ih admitted moved

/-- A property of each task along the trace: a task has it when it is spawned, its own steps keep
it, and no other step takes it away. -/
theorem each (I : Trace S L Op Reply Env → Nat → Proc L Op Reply Unit → Prop)
    (initial : ∀ (i : Nat) t, c₀.tasks[i]? = some t → I [] i t)
    (performed : ∀ {tr c i l o r s'} {resume : Reply o → Proc L Op Reply Unit},
      Run M admits c₀ tr c → c.tasks[i]? = some (.op l o resume) → I tr i (.op l o resume) →
      admits tr c (.perform i l o r) → M.exec c.shared i l o r = some s' →
      I (tr ++ [(c.shared, .perform i l o r)]) i (resume r))
    (unrolled : ∀ {tr c i β l} {body : L → Proc L Op Reply (Option β)}
      {exit : L → β → Proc L Op Reply Unit},
      Run M admits c₀ tr c → c.tasks[i]? = some (.loop l body exit) → I tr i (.loop l body exit) →
      I (tr ++ [(c.shared, .unroll i)]) i (Proc.unroll l body exit))
    (spawned : ∀ {tr c e s' ts}, Run M admits c₀ tr c → M.env c.shared e = some (s', ts) →
      ∀ (i : Nat) t, c.tasks.length ≤ i → ts[i - c.tasks.length]? = some t →
      I (tr ++ [(c.shared, .env e)]) i t)
    (aside : ∀ {tr s e i t}, (∀ l o r, e ≠ .perform i l o r) → I tr i t → I (tr ++ [(s, e)]) i t)
    (run : Run M admits c₀ tr c) : ∀ (i : Nat) t, c.tasks[i]? = some t → I tr i t := by
  induction run with
  | start => exact initial
  | @step tr c c' e before admitted moved ih =>
      intro i t here
      cases moved with
      | @perform j l o resume r s' pending granted =>
          rw [List.getElem?_set] at here
          split_ifs at here with same old
          · subst same
            cases here
            exact performed before pending (ih j _ pending) admitted granted
          · apply aside _ (ih i t here)
            intro l' o' r' label
            cases label
            exact same rfl
      | @unroll j β l body exit pending =>
          rw [List.getElem?_set] at here
          split_ifs at here with same old
          · subst same
            cases here
            exact unrolled before pending (ih j _ pending)
          · apply aside _ (ih i t here)
            intro l' o' r' label
            cases label
      | @env e s' ts granted =>
          rw [List.getElem?_append] at here
          split_ifs at here with old
          · apply aside _ (ih i t here)
            intro l' o' r' label
            cases label
          · exact spawned before granted i t (Nat.le_of_not_lt old) here

/-- A property of what has followed some step of the run, which the step establishes and every later
step keeps. -/
theorem since {starts : S × Label L Op Reply Env → Prop}
    (J : Trace S L Op Reply Env → Trace S L Op Reply Env → Config S L Op Reply → Prop)
    (first : ∀ {tr c e c'}, Run M admits c₀ tr c → Step M c e c' → starts (c.shared, e) →
      J [] (tr ++ [(c.shared, e)]) c')
    (kept : ∀ {post tr c e c'}, Run M admits c₀ tr c → J post tr c → Step M c e c' →
      J (post ++ [(c.shared, e)]) (tr ++ [(c.shared, e)]) c')
    (run : Run M admits c₀ tr c) :
    ∀ pre x post, tr = pre ++ x :: post → starts x → J post tr c := by
  induction run with
  | start =>
      intro pre x post split
      simp at split
  | @step tr c c' e before admitted moved ih =>
      intro pre x post split here
      rcases List.eq_nil_or_concat post with rfl | ⟨post', y, rfl⟩
      · obtain ⟨_, same⟩ := List.append_inj' split rfl
        cases same
        exact first before moved here
      · rw [List.concat_eq_append, ← List.cons_append, ← List.append_assoc] at split
        obtain ⟨earlier, same⟩ := List.append_inj' split rfl
        cases same
        rw [List.concat_eq_append]
        exact kept before (ih pre x post' earlier here) moved

theorem upto (run : Run M admits c₀ tr c) : ∀ pre s e post, tr = pre ++ (s, e) :: post →
    ∃ c₁ c₂, Run M admits c₀ pre c₁ ∧ c₁.shared = s ∧ admits pre c₁ e ∧ Step M c₁ e c₂ := by
  induction run with
  | start =>
      intro pre s e post split
      simp at split
  | @step tr c c' e' before admitted moved ih =>
      intro pre s e post split
      rcases List.eq_nil_or_concat post with rfl | ⟨post', y, rfl⟩
      · obtain ⟨earlier, same⟩ := List.append_inj' split rfl
        cases same
        cases earlier
        exact ⟨c, c', before, rfl, admitted, moved⟩
      · rw [List.concat_eq_append, ← List.cons_append, ← List.append_assoc] at split
        obtain ⟨earlier, _⟩ := List.append_inj' split rfl
        exact ih pre s e post' earlier

/-- A relation of the ghost of task `i` to the shared state that the operations of the task keep,
and every step keeps as long as the ghost stands still. -/
theorem watched (P : Protocol G S L Op Reply) (g₀ : G) (i : Nat) (Φ : G → S → Prop)
    (initial : Φ g₀ c₀.shared)
    (own : ∀ {g s s' l o r}, Φ g s → M.exec s i l o r = some s' → Φ (P.next g s l o r) s')
    (aside : ∀ {g c e c'}, Φ g c.shared → Step M c e c' → Φ g c'.shared)
    (run : Run M admits c₀ tr c) : Φ (ghost P g₀ i tr) c.shared := by
  apply run.invariant (fun tr c => Φ (ghost P g₀ i tr) c.shared)
  · exact initial
  intro tr c e c' _ before _ moved
  have still : Φ (ghost P g₀ i tr) c'.shared := aside before moved
  cases moved with
  | @perform j l o resume r s' pending granted =>
      rw [ghost_perform]
      split_ifs with same
      · subst same
        exact own before granted
      · exact still
  | unroll pending =>
      rw [ghost_unroll]
      exact still
  | env granted =>
      rw [ghost_env]
      exact still

theorem ghost_unspawned (P : Protocol G S L Op Reply) (g₀ : G) (run : Run M admits c₀ tr c) :
    ∀ i, c.tasks.length ≤ i → ghost P g₀ i tr = g₀ := by
  induction run with
  | start => exact fun i _ => rfl
  | step before admitted moved ih =>
      intro i unspawned
      cases moved with
      | @perform j l o resume r s' pending granted =>
          rw [List.length_set] at unspawned
          have spawned : j < _ := (List.getElem?_eq_some_iff.mp pending).1
          rw [ghost_perform_other (by omega)]
          exact ih i unspawned
      | unroll pending =>
          rw [List.length_set] at unspawned
          rw [ghost_unroll]
          exact ih i unspawned
      | env granted =>
          rw [List.length_append] at unspawned
          rw [ghost_env]
          exact ih i (by omega)

/-- Processes that keep to a protocol when they are spawned keep to it in every run, each along its
own ghost, as long as the answers they get are valid for it. -/
theorem protocol (P : Protocol G S L Op Reply) (Q : G → L → Unit → Prop) (g₀ : G)
    (initial : ∀ t ∈ c₀.tasks, Proc.wp P t Q g₀)
    (spawned : ∀ s e s' ts, M.env s e = some (s', ts) → ∀ t ∈ ts, Proc.wp P t Q g₀)
    (valid : ∀ {tr c}, Run M admits c₀ tr c →
      ∀ {i l o r s'} {resume : Reply o → Proc L Op Reply Unit},
      c.tasks[i]? = some (.op l o resume) →
      P.coherent (ghost P g₀ i tr) l → P.guard (ghost P g₀ i tr) l o →
      admits tr c (.perform i l o r) → M.exec c.shared i l o r = some s' →
      P.valid (ghost P g₀ i tr) c.shared l o r)
    (run : Run M admits c₀ tr c) :
    ∀ i t, c.tasks[i]? = some t → Proc.wp P t Q (ghost P g₀ i tr) := by
  refine run.each (fun tr i t => Proc.wp P t Q (ghost P g₀ i tr)) ?_ ?_ ?_ ?_ ?_
  · exact fun i t here => initial t (List.mem_of_getElem? here)
  · intro tr c i l o r s' resume before pending kept admitted granted
    obtain ⟨coherent, guard, answered⟩ := kept
    rw [ghost_perform_self]
    exact answered _ _ (valid before pending coherent guard admitted granted)
  · intro tr c i β l body exit before pending kept
    rw [ghost_unroll]
    exact Proc.wp_unroll kept
  · intro tr c e s' ts before granted i t new here
    rw [ghost_env, ghost_unspawned P g₀ before i new]
    exact spawned _ _ _ _ granted t (List.mem_of_getElem? here)
  · intro tr s e i t aside kept
    rw [ghost_aside aside]
    exact kept

end Run

/-- One move of a scripted run: a task goes on, with answers that may look at the shared state, or
the environment moves. -/
inductive Move (S Op : Type) (Reply : Op → Type) (Env : Type)
  | task (i : Nat) (answer : S → (o : Op) → Reply o)
  | env (e : Env)

namespace System

variable (M : System S L Op Reply Env)

def move (c : Config S L Op Reply) :
    Move S Op Reply Env → Option (Label L Op Reply Env × Config S L Op Reply)
  | .task i answer => match c.tasks[i]? with
    | none => none
    | some (.ret _ _) => none
    | some (.op l o resume) => (M.exec c.shared i l o (answer c.shared o)).map fun s' =>
        (.perform i l o (answer c.shared o), ⟨s', c.tasks.set i (resume (answer c.shared o))⟩)
    | some (.loop l body exit) =>
        some (.unroll i, ⟨c.shared, c.tasks.set i (Proc.unroll l body exit)⟩)
  | .env e => (M.env c.shared e).map fun x => (.env e, ⟨x.1, c.tasks ++ x.2⟩)

/-- Carry out a script whose every step `ok` lets through. -/
def drive (ok : Trace S L Op Reply Env → Config S L Op Reply → Label L Op Reply Env → Bool)
    (tr : Trace S L Op Reply Env) (c : Config S L Op Reply) :
    List (Move S Op Reply Env) → Option (Trace S L Op Reply Env × Config S L Op Reply)
  | [] => some (tr, c)
  | m :: ms => match M.move c m with
    | none => none
    | some (e, c') => if ok tr c e then drive ok (tr ++ [(c.shared, e)]) c' ms else none

variable {M}

theorem move_step {c c' : Config S L Op Reply} {m : Move S Op Reply Env}
    {e : Label L Op Reply Env} (h : M.move c m = some (e, c')) : Step M c e c' := by
  cases m with
  | env e' =>
      simp only [move, Option.map_eq_some_iff] at h
      obtain ⟨⟨s', ts⟩, granted, h⟩ := h
      cases h
      exact .env granted
  | task i answer =>
      simp only [move] at h
      split at h
      · cases h
      · cases h
      · next pending =>
          obtain ⟨s', granted, h⟩ := Option.map_eq_some_iff.mp h
          cases h
          exact .perform pending granted
      · next pending =>
          cases h
          exact .unroll pending

section Scripts

variable {admits : Trace S L Op Reply Env → Config S L Op Reply → Label L Op Reply Env → Prop}
  {ok : Trace S L Op Reply Env → Config S L Op Reply → Label L Op Reply Env → Bool}
  (sound : ∀ tr c e, ok tr c e = true → admits tr c e)

include sound

theorem drive_run {c₀ c c' : Config S L Op Reply} {tr tr' : Trace S L Op Reply Env}
    (ms : List (Move S Op Reply Env)) (before : Run M admits c₀ tr c)
    (h : M.drive ok tr c ms = some (tr', c')) : Run M admits c₀ tr' c' := by
  induction ms generalizing tr c with
  | nil =>
      cases h
      exact before
  | cons m ms ih =>
      simp only [drive] at h
      split at h
      · cases h
      · next e c'' moved =>
          split_ifs at h with admitted
          exact ih (.step before (sound tr c e admitted) (move_step moved)) h

variable (M admits ok) in
theorem drive_reaches (c₀ : Config S L Op Reply) (ms : List (Move S Op Reply Env))
    (p : Trace S L Op Reply Env → Config S L Op Reply → Bool)
    (h : (M.drive ok [] c₀ ms).any (fun x => p x.1 x.2) = true) :
    ∃ tr c, Run M admits c₀ tr c ∧ p tr c = true := by
  cases driven : M.drive ok [] c₀ ms with
  | none => simp [driven] at h
  | some x =>
      rw [driven] at h
      exact ⟨x.1, x.2, drive_run sound ms .start driven, h⟩

end Scripts

variable (M) in
/-- What a script is seen to reach, a run with no restriction on its steps reaches. -/
theorem script_reaches (c₀ : Config S L Op Reply) (ms : List (Move S Op Reply Env))
    (p : Trace S L Op Reply Env → Config S L Op Reply → Bool)
    (h : (M.drive (fun _ _ _ => true) [] c₀ ms).any (fun x => p x.1 x.2) = true) :
    ∃ tr c, Run M always c₀ tr c ∧ p tr c = true :=
  drive_reaches M always (fun _ _ _ => true) (fun _ _ _ _ => trivial) c₀ ms p h

end System

end HadesPsTrader.Interaction
