/- Module: HadesPsTrader/Runs/WorldSteps
   source: src/main.rs, src/price_feed.rs, src/dip_buy.rs
   digest: What one operation or background step changes in the shared state, part by part. -/

import HadesPsTrader.Tasks.World

set_option autoImplicit false
set_option relaxedAutoImplicit false

namespace HadesPsTrader.Tasks

open HadesPsTrader.Market HadesPsTrader.Interaction

namespace World

variable {w w' : World} {i : Nat} {o : Op} {r : Reply o}

theorem recvTick_cases {x : Option Sample} (h : w.recvTick i x = some w') :
    (∃ sample rest, x = some sample ∧ (w.feeds i).queue = sample :: rest ∧
      w' = w.setFeed i { w.feeds i with queue := rest }) ∨
    (x = none ∧ (w.feeds i).queue = [] ∧ (w.feeds i).poller = .ended ∧ w' = w) := by
  unfold recvTick at h
  split at h
  · next sample next rest queue =>
      split_ifs at h with same
      cases h
      exact .inl ⟨sample, rest, rfl, same ▸ queue, rfl⟩
  · next queue =>
      split_ifs at h with ended
      cases h
      exact .inr ⟨rfl, queue, ended, rfl⟩
  · cases h
  · cases h

/-- The parts of the shared state that belong to all tasks alike. -/
structure SameCommon (w w' : World) : Prop where
  clock : w'.clock = w.clock
  openPositions : w'.openPositions = w.openPositions
  tracker : w'.tracker = w.tracker
  spawned : w'.spawned = w.spawned
  main : w'.main = w.main
  recent : w'.recent = w.recent

theorem SameCommon.rfl : SameCommon w w := ⟨.refl _, .refl _, .refl _, .refl _, .refl _, .refl _⟩

theorem setFeed_sameCommon (w : World) (i : Nat) (f : Feed) : SameCommon w (w.setFeed i f) :=
  ⟨rfl, rfl, rfl, rfl, rfl, rfl⟩

theorem recvTick_sameCommon {x : Option Sample} (h : w.recvTick i x = some w') :
    SameCommon w w' := by
  rcases recvTick_cases h with ⟨_, _, _, _, rfl⟩ | ⟨_, _, _, rfl⟩
  · exact setFeed_sameCommon w i _
  · exact .rfl

private theorem granted_iff {p : Prop} [Decidable p] {after : World} :
    (if p then some after else none) = some w' ↔ p ∧ after = w' := by
  rw [Option.ite_none_right_eq_some, Option.some.injEq]

theorem answerSelect_cases {x : SessionEvent} (h : w.answerSelect i x = some w') :
    (x = .deadline ∧ w' = w) ∨ ∃ sample, x = .tick sample ∧ w.recvTick i sample = some w' := by
  cases x with
  | deadline =>
      obtain ⟨_, rfl⟩ := granted_iff.mp h
      exact .inl ⟨rfl, rfl⟩
  | tick sample =>
      obtain ⟨_, received⟩ := Option.ite_none_left_eq_some.mp h
      exact .inr ⟨sample, rfl, received⟩

theorem answerCopySelect_cases {mirrorOpen : Bool} {x : CopyEvent}
    (h : w.answerCopySelect i mirrorOpen x = some w') :
    (x = .deadline ∧ w' = w) ∨
    (∃ r rx, x = .shutdown r ∧ (w.shutdown i).recv r = some rx ∧
      w' = { w with shutdown := Function.update w.shutdown i rx }) ∨
    (∃ r rx, x = .mirror r ∧ (w.mirror i).recv r = some rx ∧
      w' = { w with mirror := Function.update w.mirror i rx }) ∨
    ∃ sample, x = .tick sample ∧ w.recvTick i sample = some w' := by
  cases x with
  | deadline =>
      obtain ⟨_, rfl⟩ := granted_iff.mp h
      exact .inl ⟨rfl, rfl⟩
  | shutdown r =>
      obtain ⟨_, answered⟩ := Option.ite_none_left_eq_some.mp h
      obtain ⟨rx, received, rfl⟩ := Option.map_eq_some_iff.mp answered
      exact .inr (.inl ⟨r, rx, rfl, received, rfl⟩)
  | mirror r =>
      obtain ⟨_, answered⟩ := Option.ite_none_left_eq_some.mp h
      obtain ⟨rx, received, rfl⟩ := Option.map_eq_some_iff.mp answered
      exact .inr (.inr (.inl ⟨r, rx, rfl, received, rfl⟩))
  | tick sample =>
      obtain ⟨_, received⟩ := Option.ite_none_left_eq_some.mp h
      exact .inr (.inr (.inr ⟨sample, rfl, received⟩))

theorem answerSelect_sameCommon {x : SessionEvent} (h : w.answerSelect i x = some w') :
    SameCommon w w' := by
  rcases answerSelect_cases h with ⟨_, rfl⟩ | ⟨sample, _, received⟩
  · exact .rfl
  · exact recvTick_sameCommon received

theorem answerCopySelect_sameCommon {mirrorOpen : Bool} {x : CopyEvent}
    (h : w.answerCopySelect i mirrorOpen x = some w') : SameCommon w w' := by
  rcases answerCopySelect_cases h with
    ⟨_, rfl⟩ | ⟨_, _, _, _, rfl⟩ | ⟨_, _, _, _, rfl⟩ | ⟨sample, _, received⟩
  · exact .rfl
  · exact ⟨rfl, rfl, rfl, rfl, rfl, rfl⟩
  · exact ⟨rfl, rfl, rfl, rfl, rfl, rfl⟩
  · exact recvTick_sameCommon received

theorem perform_fetchAdd {old : Int} : w.perform i .fetchAdd old = some w' ↔
    old = w.openPositions ∧ { w with openPositions := w.openPositions + 1 } = w' := by
  exact granted_iff

theorem perform_fetchSub {old : Int} : w.perform i .fetchSub old = some w' ↔
    old = w.openPositions ∧ { w with openPositions := w.openPositions - 1 } = w' := by
  exact granted_iff

theorem perform_spendCheck {now : Instant} {amountSol : ℚ} {allowed : Except ℚ Unit} :
    w.perform i (.spendCheck now amountSol) allowed = some w' ↔
      allowed = (w.tracker.check now amountSol).2 ∧
        { w with tracker := (w.tracker.check now amountSol).1 } = w' := by
  exact granted_iff

theorem perform_spendRecord {amountSol total : ℚ} :
    w.perform i (.spendRecord amountSol) total = some w' ↔
      total = ((w.tracker.record w.clock amountSol).total24h w.clock).2 ∧
        { w with tracker := ((w.tracker.record w.clock amountSol).total24h w.clock).1 } = w' := by
  exact granted_iff

theorem perform_now {site : ClockSite} {t : Instant} :
    w.perform i (.now site) t = some w' ↔ t = w.clock ∧ w = w' := by
  exact granted_iff

end World

def Op.isFetchAdd : Op → Bool
  | .fetchAdd => true
  | _ => false

def Op.isFetchSub : Op → Bool
  | .fetchSub => true
  | _ => false

def Op.isSelect : Op → Bool
  | .select => true
  | _ => false

def Op.shared : Op → Bool
  | .fetchAdd => true
  | .fetchSub => true
  | .spendCheck _ _ => true
  | .spendRecord _ => true
  | _ => false

namespace World

variable {w w' : World} {i : Nat} {o : Op} {r : Reply o}

theorem perform_sameCommon (h : w.perform i o r = some w') (own : o.shared = false) :
    SameCommon w w' := by
  cases o with
  | now site =>
      obtain ⟨_, rfl⟩ := perform_now.mp h
      exact .rfl
  | fetchAdd => cases own
  | fetchSub => cases own
  | spendCheck now amountSol => cases own
  | spendRecord amountSol => cases own
  | select => exact answerSelect_sameCommon h
  | copySelect mirrorOpen => exact answerCopySelect_sameCommon h
  | recv => exact recvTick_sameCommon h
  | spawnPricePoll mint => cases h; exact setFeed_sameCommon w i _
  | sleepUntil deadline => cases h; exact setFeed_sameCommon w i _
  | _ => cases h; exact .rfl

theorem recvTick_rest {x : Option Sample} (h : w.recvTick i x = some w') :
    ∃ feeds, w' = { w with feeds := feeds } := by
  rcases recvTick_cases h with ⟨_, _, _, _, rfl⟩ | ⟨_, _, _, rfl⟩
  · exact ⟨_, rfl⟩
  · exact ⟨_, rfl⟩

theorem perform_rest (h : w.perform i o r = some w') :
    ∃ openPositions tracker feeds mirror shutdown, w' = { w with
      openPositions := openPositions
      tracker := tracker
      feeds := feeds
      mirror := mirror
      shutdown := shutdown } := by
  cases o with
  | now site => obtain ⟨_, rfl⟩ := perform_now.mp h; exact ⟨_, _, _, _, _, rfl⟩
  | fetchAdd => obtain ⟨_, rfl⟩ := perform_fetchAdd.mp h; exact ⟨_, _, _, _, _, rfl⟩
  | fetchSub => obtain ⟨_, rfl⟩ := perform_fetchSub.mp h; exact ⟨_, _, _, _, _, rfl⟩
  | spendCheck now amountSol =>
      obtain ⟨_, rfl⟩ := perform_spendCheck.mp h
      exact ⟨_, _, _, _, _, rfl⟩
  | spendRecord amountSol =>
      obtain ⟨_, rfl⟩ := perform_spendRecord.mp h
      exact ⟨_, _, _, _, _, rfl⟩
  | select =>
      rcases answerSelect_cases h with ⟨_, rfl⟩ | ⟨sample, _, received⟩
      · exact ⟨_, _, _, _, _, rfl⟩
      · obtain ⟨feeds, rfl⟩ := recvTick_rest received
        exact ⟨_, _, _, _, _, rfl⟩
  | copySelect mirrorOpen =>
      rcases answerCopySelect_cases h with
        ⟨_, rfl⟩ | ⟨_, _, _, _, rfl⟩ | ⟨_, _, _, _, rfl⟩ | ⟨sample, _, received⟩
      · exact ⟨_, _, _, _, _, rfl⟩
      · exact ⟨_, _, _, _, _, rfl⟩
      · exact ⟨_, _, _, _, _, rfl⟩
      · obtain ⟨feeds, rfl⟩ := recvTick_rest received
        exact ⟨_, _, _, _, _, rfl⟩
  | recv =>
      obtain ⟨feeds, rfl⟩ := recvTick_rest h
      exact ⟨_, _, _, _, _, rfl⟩
  | _ => cases h; exact ⟨_, _, _, _, _, rfl⟩

theorem perform_clock (h : w.perform i o r = some w') :
    w'.clock = w.clock ∧ w'.spawned = w.spawned ∧ w'.main = w.main ∧ w'.recent = w.recent := by
  obtain ⟨_, _, _, _, _, rfl⟩ := perform_rest h
  exact ⟨rfl, rfl, rfl, rfl⟩

theorem perform_openPositions (h : w.perform i o r = some w') (add : o.isFetchAdd = false)
    (sub : o.isFetchSub = false) : w'.openPositions = w.openPositions := by
  cases own : o.shared with
  | false => exact (perform_sameCommon h own).openPositions
  | true =>
      cases o with
      | fetchAdd => cases add
      | fetchSub => cases sub
      | spendCheck now amountSol => obtain ⟨_, rfl⟩ := perform_spendCheck.mp h; rfl
      | spendRecord amountSol => obtain ⟨_, rfl⟩ := perform_spendRecord.mp h; rfl
      | _ => cases own

theorem background_cases {e : Env} (h : w.background e = some w') :
    (∃ d, e = .advance d ∧ w' = { w with clock := w.clock + d }) ∨
    ∃ i x f, e = .feed i x ∧ (w.feeds i).step w.clock x = some f ∧ w' = w.setFeed i f := by
  cases e with
  | advance d => cases h; exact .inl ⟨d, rfl, rfl⟩
  | feed i x =>
      obtain ⟨f, moved, rfl⟩ := Option.map_eq_some_iff.mp h
      exact .inr ⟨i, x, f, rfl, moved, rfl⟩
  | migrate e => cases h
  | frame t pause => cases h
  | shutdownSignal => cases h
  | drainCheck => cases h

theorem background_common {e : Env} (h : w.background e = some w') :
    w.clock ≤ w'.clock ∧ w'.openPositions = w.openPositions ∧ w'.tracker = w.tracker := by
  rcases background_cases h with ⟨d, rfl, rfl⟩ | ⟨i, x, f, rfl, _, rfl⟩
  · exact ⟨Nat.le_add_right _ _, rfl, rfl⟩
  · exact ⟨le_refl _, rfl, rfl⟩

end World

/-! ### Feeds -/

/-- The samples on their way to a task: in the hand of the poller, or queued. -/
def Feed.samples (f : Feed) : List Sample := f.inHand.toList ++ f.queue

/-- The select of a session finds something to answer. -/
def Feed.ready (f : Feed) : Bool := f.fired || !f.queue.isEmpty || f.poller = .ended

/-- The operations that take a sample from the channel. -/
def Op.receives : Op → Bool
  | .select => true
  | .copySelect _ => true
  | .recv => true
  | _ => false

/-- What an operation of a task may do to its feed. -/
inductive FeedMove (o : Op) (f f' : Feed) : Prop
  | kept (now : f' = f)
  | received (sample : Sample) (rest : List Sample) (receives : o.receives = true)
      (queue : f.queue = sample :: rest) (now : f' = { f with queue := rest })
  | polled (mint : String) (op : o = .spawnPricePoll mint)
      (now : f' = { f with poller := .discovering })
  | timed (deadline : Option Instant) (now : f' = { f with deadline := deadline })

namespace World

variable {w w' : World} {i : Nat} {o : Op} {r : Reply o}

@[simp] theorem setFeed_self (w : World) (i : Nat) (f : Feed) : (w.setFeed i f).feeds i = f := by
  simp [setFeed]

theorem setFeed_other {j : Nat} (other : j ≠ i) (f : Feed) :
    (w.setFeed i f).feeds j = w.feeds j := by
  simp [setFeed, other]

theorem recvTick_feeds (receives : o.receives = true) {x : Option Sample}
    (h : w.recvTick i x = some w') :
    FeedMove o (w.feeds i) (w'.feeds i) ∧ ∀ j, j ≠ i → w'.feeds j = w.feeds j := by
  rcases recvTick_cases h with ⟨sample, rest, _, queue, rfl⟩ | ⟨_, _, _, rfl⟩
  · exact ⟨.received sample rest receives queue (setFeed_self w i _), fun j other =>
      setFeed_other other _⟩
  · exact ⟨.kept rfl, fun _ _ => rfl⟩

theorem perform_feeds (h : w.perform i o r = some w') :
    FeedMove o (w.feeds i) (w'.feeds i) ∧ ∀ j, j ≠ i → w'.feeds j = w.feeds j := by
  have still (same : w'.feeds = w.feeds) :
      FeedMove o (w.feeds i) (w'.feeds i) ∧ ∀ j, j ≠ i → w'.feeds j = w.feeds j :=
    ⟨.kept (by rw [same]), fun j _ => by rw [same]⟩
  cases o with
  | now site => obtain ⟨_, rfl⟩ := perform_now.mp h; exact still rfl
  | fetchAdd => obtain ⟨_, rfl⟩ := perform_fetchAdd.mp h; exact still rfl
  | fetchSub => obtain ⟨_, rfl⟩ := perform_fetchSub.mp h; exact still rfl
  | spendCheck now amountSol => obtain ⟨_, rfl⟩ := perform_spendCheck.mp h; exact still rfl
  | spendRecord amountSol => obtain ⟨_, rfl⟩ := perform_spendRecord.mp h; exact still rfl
  | spawnPricePoll mint =>
      cases h
      exact ⟨.polled mint rfl (setFeed_self w i _), fun j other => setFeed_other other _⟩
  | sleepUntil deadline =>
      cases h
      exact ⟨.timed deadline (setFeed_self w i _), fun j other => setFeed_other other _⟩
  | select =>
      rcases answerSelect_cases h with ⟨_, rfl⟩ | ⟨sample, _, received⟩
      · exact still rfl
      · exact recvTick_feeds rfl received
  | copySelect mirrorOpen =>
      rcases answerCopySelect_cases h with
        ⟨_, rfl⟩ | ⟨_, _, _, _, rfl⟩ | ⟨_, _, _, _, rfl⟩ | ⟨sample, _, received⟩
      · exact still rfl
      · exact still rfl
      · exact still rfl
      · exact recvTick_feeds rfl received
  | recv => exact recvTick_feeds rfl h
  | _ => cases h; exact still rfl

theorem select_sample {sample : Sample} (h : w.perform i .select (.tick (some sample)) = some w') :
    sample ∈ (w.feeds i).samples := by
  have answered : w.answerSelect i (.tick (some sample)) = some w' := h
  rcases answerSelect_cases answered with ⟨fired, _⟩ | ⟨_, same, ticked⟩
  · cases fired
  cases same
  rcases recvTick_cases ticked with ⟨sample', rest, received, queue, _⟩ | ⟨away, _⟩
  · cases received
    exact List.mem_append_right _ (by simp [queue])
  · cases away

end World

theorem FeedMove.samples {o : Op} {f f' : Feed} (h : FeedMove o f f') :
    ∀ s ∈ f'.samples, s ∈ f.samples := by
  intro s mem
  cases h with
  | kept now => rwa [now] at mem
  | received sample rest _ queue now =>
      simp only [Feed.samples, now, queue, List.mem_append, List.mem_cons] at mem ⊢
      exact mem.imp_right .inr
  | polled mint _ now => rwa [now] at mem
  | timed deadline now => rwa [now] at mem

theorem Feed.step_samples {clock : Instant} {f f' : Feed} {x : FeedStep}
    (h : f.step clock x = some f') : ∀ s ∈ f'.samples, s ∈ f.samples ∨ s.sampledAt = clock := by
  intro s mem
  cases x with
  | discovered => simp only [Feed.step] at h; split_ifs at h; cases h; exact .inl mem
  | gaveUp => simp only [Feed.step] at h; split_ifs at h; cases h; exact .inl mem
  | sample u =>
      simp only [Feed.step] at h
      split_ifs at h with idle
      cases h
      rcases List.mem_append.mp mem with inHand | queued
      · simp only [Option.toList_some, List.mem_singleton] at inHand
        exact .inr (by rw [inHand])
      · exact .inl (List.mem_append_right _ queued)
  | send =>
      simp only [Feed.step] at h
      split at h
      · cases h
      · next sample inHand =>
          cases h
          simp only [Feed.samples, inHand, Option.toList_none, List.nil_append, List.mem_append,
            List.mem_singleton, Option.toList_some] at mem ⊢
          exact .inl mem.symm
  | fire =>
      simp only [Feed.step] at h
      split at h
      · cases h
      · split_ifs at h
        cases h
        exact .inl mem

/-- Nothing that a poller or a timer does makes a ready select wait. -/
theorem Feed.step_ready {clock : Instant} {f f' : Feed} {x : FeedStep}
    (h : f.step clock x = some f') (ready : f.ready = true) : f'.ready = true := by
  cases x with
  | discovered =>
      simp only [Feed.step] at h
      split_ifs at h with discovering
      cases h
      simpa [Feed.ready, discovering] using ready
  | gaveUp => simp only [Feed.step] at h; split_ifs at h; cases h; simp [Feed.ready]
  | sample u => simp only [Feed.step] at h; split_ifs at h; cases h; exact ready
  | send =>
      simp only [Feed.step] at h
      split at h
      · cases h
      · cases h
        simp [Feed.ready]
  | fire =>
      simp only [Feed.step] at h
      split at h
      · cases h
      · split_ifs at h
        cases h
        simp [Feed.ready]

section Graduation

variable {cfg : Market.Config} {dryRun : Bool} {w w' : World} {e : Env}
  {ts : List (TaskProc SessionLocals)}

theorem graduation_env_cases (h : (graduation cfg dryRun).env w e = some (w', ts)) :
    (∃ ev, e = .migrate ev ∧ w' = { w with spawned := w.spawned + 1 } ∧
      ts = [sessionTask cfg dryRun (.start cfg ev w.clock)]) ∨
    (w.background e = some w' ∧ ts = []) := by
  have back (h : (w.background e).map (fun w' => (w', [])) = some (w', ts)) :
      w.background e = some w' ∧ ts = [] := by
    obtain ⟨w'', moved, same⟩ := Option.map_eq_some_iff.mp h
    cases same
    exact ⟨moved, rfl⟩
  cases e with
  | migrate ev => cases h; exact .inl ⟨ev, rfl, rfl, rfl⟩
  | _ => exact .inr (back h)

theorem graduation_env_clock (h : (graduation cfg dryRun).env w e = some (w', ts)) :
    w.clock ≤ w'.clock := by
  rcases graduation_env_cases h with ⟨_, _, rfl, _⟩ | ⟨moved, _⟩
  · exact le_refl _
  · exact (World.background_common moved).1

end Graduation

end HadesPsTrader.Tasks
