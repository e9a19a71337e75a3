/- Module: HadesPsTrader/Runs/FreshPrices
   source: src/session.rs, src/price_feed.rs
   digest: When the exits of a position are decided on prices seen since its entry. -/

import HadesPsTrader.Runs.EntryDiscipline

set_option autoImplicit false
set_option relaxedAutoImplicit false

namespace HadesPsTrader.Tasks

open HadesPsTrader.Market HadesPsTrader.Chain HadesPsTrader.Interaction

/-- The open position whose peak and exit a step decides on, with the sample it goes by: a price
tick that the rug guard lets pass. -/
def exitPrice (cfg : Market.Config) : GradLabel → Option (Position × Sample)
  | .perform _ l .select (.tick (some sample)) =>
      match (l.rugGuard.observe sample.update.priceSol sample.update.poolSol).isRugged cfg.rug
        sample.update.priceSol sample.update.poolSol with
      | some _ => none
      | none => l.position.map fun pos => (pos, sample)
  | _ => none

/-- Every exit was decided on a price sampled at or after the entry. -/
def PricesSinceEntry (cfg : Market.Config) (tr : GradTrace) : Prop :=
  ∀ x ∈ tr, ∀ y ∈ exitPrice cfg x.2, y.1.boughtAt ≤ y.2.sampledAt

theorem exitPrice_some {cfg : Market.Config} {e : GradLabel} {pos : Position} {sample : Sample}
    (h : (pos, sample) ∈ exitPrice cfg e) :
    ∃ i l, e = .perform i l .select (.tick (some sample)) ∧ l.position = some pos := by
  unfold exitPrice at h
  split at h
  · next i l sample' =>
      split at h
      · cases h
      · obtain ⟨pos', position, same⟩ := Option.map_eq_some_iff.mp h
        cases same
        exact ⟨i, l, rfl, position⟩
  · cases h

/-- The session whose position is set up by a step, with its locals. -/
def settingUp : GradLabel → Option (Nat × SessionLocals)
  | .perform i l (.notify (.bought ..)) _ => some (i, l)
  | _ => none

/-- A position is set up only while no sample from before its `bought_at` is on its way. -/
def DrainedEntries : GradAdmit := fun _ c e =>
  ∀ x ∈ settingUp e, ∀ bought ∈ x.2.purchase, ∀ sample ∈ (c.shared.feeds x.1).samples,
    bought.1 ≤ sample.sampledAt

instance (tr : GradTrace) (c : GradConfig) (e : GradLabel) : Decidable (DrainedEntries tr c e) :=
  inferInstanceAs (Decidable (∀ x ∈ settingUp e, ∀ bought ∈ x.2.purchase,
    ∀ sample ∈ (c.shared.feeds x.1).samples, bought.1 ≤ sample.sampledAt))

section Diary

variable {cfg : Market.Config} {dryRun : Bool} {g : SessionDiary} {w w' : World}
  {l : SessionLocals} {i : Nat} {o : Op} {r : Reply o}

variable (dryRun) in
theorem since_step (permitted : Permits cfg g l o) (coherent : Coherent g l)
    (granted : w.perform i o r = some w') :
    (g.next cfg dryRun w l o r).since = g.since ∨ (g.next cfg dryRun w l o r).since = none ∨
      (g.next cfg dryRun w l o r).holding = false ∧
        ∃ trigger, (g.next cfg dryRun w l o r).since = some (w.clock, trigger) := by
  cases o with
  | now site =>
      cases site with
      | boughtAt =>
          obtain ⟨rfl, _⟩ := World.perform_now.mp granted
          obtain ⟨f, buying⟩ := Option.isSome_iff_exists.mp permitted.1
          refine .inr (.inr ⟨?_, f.trigger, by simp [SessionDiary.entry, buying]⟩)
          cases coherent.stance with
          | buying f _ _ _ _ _ holding _ => exact holding
          | idle _ _ away _ _ _ => simp [away] at buying
          | opened _ _ _ away _ _ _ _ => simp [away] at buying
          | selling _ _ _ away _ _ _ _ => simp [away] at buying
      | _ => exact .inl rfl
  | fetchSub => exact .inr (.inl rfl)
  | call c => cases c <;> exact .inl rfl
  | notify n => cases n <;> exact .inl rfl
  | spendCheck now amountSol => cases r <;> exact .inl rfl
  | _ => exact .inl rfl

theorem settingUp_of_opened (i : Nat) (permitted : Permits cfg g l o) (coherent : Coherent g l)
    (closed : g.holding = false) (opened : (g.next cfg dryRun w l o r).holding = true) :
    settingUp (.perform i l o r) = some (i, l) := by
  rcases holding_step dryRun (w := w) (r := r) permitted coherent with
    ⟨_, _, _, tracked, _⟩ | ⟨held, _⟩ | ⟨held, _⟩ | ⟨same, _⟩
  · cases o with
    | notify n =>
        cases n with
        | bought => rfl
        | _ => cases tracked
    | sellAll p =>
        simp only [trackedTrade] at tracked
        split_ifs at tracked
        cases tracked
    | _ => cases tracked
  · rw [closed] at held; cases held
  · rw [closed] at held; cases held
  · rw [same, closed] at opened; cases opened

end Diary

section Runs

variable {cfg : Market.Config} {dryRun : Bool} {start : Instant} {admits : GradAdmit}
  {tr : GradTrace} {c : GradConfig}

theorem since_le (run : GradRun cfg dryRun start admits tr c) (i : Nat) :
    ∀ x, (diary cfg dryRun i tr).since = some x → x.1 ≤ c.shared.clock := by
  apply run.invariant (fun tr c => ∀ x, (diary cfg dryRun i tr).since = some x →
    x.1 ≤ c.shared.clock)
  · intro x since
    cases since
  intro tr c e c' before ih _ moved
  have later := step_clock moved
  cases moved with
  | @perform j l o resume r s' pending granted =>
      rcases eq_or_ne j i with rfl | other
      · rw [diary_self]
        intro x since
        rcases since_step dryRun (session_permits before pending)
          (session_stands before pending) granted with same | closed | ⟨_, trigger, opened⟩
        · exact (ih x (same ▸ since)).trans later
        · rw [closed] at since
          cases since
        · rw [opened] at since
          cases since
          exact later
      · rw [diary_other other]
        exact fun x since => (ih x since).trans later
  | unroll pending =>
      rw [diary_unroll]
      exact fun x since => (ih x since).trans later
  | env granted =>
      rw [diary_env]
      exact fun x since => (ih x since).trans later

/-- While a position is held, only samples from after its entry are on their way to it. -/
theorem held_samples (run : GradRun cfg dryRun start DrainedEntries tr c) (i : Nat) :
    (diary cfg dryRun i tr).holding = true → ∀ x, (diary cfg dryRun i tr).since = some x →
      ∀ sample ∈ (c.shared.feeds i).samples, x.1 ≤ sample.sampledAt := by
  apply run.invariant (fun tr c => (diary cfg dryRun i tr).holding = true →
    ∀ x, (diary cfg dryRun i tr).since = some x →
      ∀ sample ∈ (c.shared.feeds i).samples, x.1 ≤ sample.sampledAt)
  · intro holding
    cases holding
  intro tr c e c' before ih admitted moved
  cases moved with
  | @perform j l o resume r s' pending granted =>
      have feeds := World.perform_feeds (w := c.shared) (o := o) (r := r) granted
      rcases eq_or_ne j i with rfl | other
      · rw [diary_self]
        intro holding x since sample mem
        have permitted := session_permits before pending
        have coherent := session_stands before pending
        have old := feeds.1.samples sample mem
        -- the purchase was on record before
        have since_before : (diary cfg dryRun j tr).since = some x := by
          rcases since_step dryRun permitted coherent granted with
            same | closed | ⟨unheld, _, _⟩
          · exact same ▸ since
          · rw [closed] at since
            cases since
          · rw [unheld] at holding
            cases holding
        cases held : (diary cfg dryRun j tr).holding with
        | true => exact ih held x since_before sample old
        | false =>
            have announced : (j, l) ∈ settingUp (.perform j l o r : GradLabel) :=
              settingUp_of_opened j permitted coherent held holding
            exact admitted _ announced x (coherent.since ▸ since_before) sample old
      · rw [diary_other other, feeds.2 i (Ne.symm other)]
        exact ih
  | unroll pending => rwa [diary_unroll]
  | env granted =>
      rw [diary_env]
      intro holding x since sample mem
      rcases graduation_env_cases granted with ⟨_, _, rfl, _⟩ | ⟨moved, _⟩
      · exact ih holding x since sample mem
      · rcases World.background_cases moved with ⟨_, _, rfl⟩ | ⟨j, y, f, _, step, rfl⟩
        · exact ih holding x since sample mem
        · rcases eq_or_ne i j with rfl | other
          · rw [World.setFeed_self] at mem
            rcases Feed.step_samples step sample mem with old | stamped
            · exact ih holding x since sample old
            · rw [stamped]
              exact since_le before i x since
          · rw [World.setFeed_other other] at mem
            exact ih holding x since sample mem

theorem prices_since_entry (cfg : Market.Config) (dryRun : Bool) (start : Instant) (tr : GradTrace)
    (c : GradConfig) (run : GradRun cfg dryRun start DrainedEntries tr c) :
    PricesSinceEntry cfg tr := by
  apply run.invariant (fun tr _ => PricesSinceEntry cfg tr)
  · intro x mem
    cases mem
  intro tr c e c' before ih _ moved x mem
  rcases List.mem_append.mp mem with old | last
  · exact ih x old
  · rw [List.mem_singleton.mp last]
    rintro ⟨pos, sample⟩ used
    obtain ⟨i, l, rfl, position⟩ := exitPrice_some used
    cases moved with
    | perform pending granted =>
        cases (session_stands before pending).stance with
        | opened pos' position' _ _ _ holding since _ =>
            obtain rfl : pos' = pos := Option.some.inj (position'.symm.trans position)
            exact held_samples before i holding _ since sample (World.select_sample granted)
        | idle away _ _ _ _ _ => simp [away] at position
        | selling _ away _ _ _ _ _ _ => simp [away] at position
        | buying _ away _ _ _ _ _ _ => simp [away] at position

end Runs

theorem prices_since_entry_next_tick : ∃ tr, tr.any (fun x => (exitPrice eager x.2).isSome) = true ∧
    PricesSinceEntry eager tr := by
  obtain ⟨tr, c, run, used⟩ := System.drive_reaches (graduation eager false)
    DrainedEntries (fun tr c e => DrainedEntries tr c e)
    (fun _ _ _ => of_decide_eq_true) (graduationStart eager 0)
    (warmUp 0 ++ buyTick readyNet 0 9 ++ price 0 1 10 ++ go readyNet 0 3)
    (fun tr _ => tr.any (fun x => (exitPrice eager x.2).isSome)) (by decide +kernel)
  exact ⟨tr, used, prices_since_entry eager false 0 tr c run⟩

/-- The poller reads a price while the buy is being sent. It is queued behind the entry, and then
sets the peak of the position. -/
theorem stale_price_sets_peak : ∃ tr c, GradRun eager false 0 always tr c ∧
    ¬ PricesSinceEntry eager tr ∧
    c.tasks.map (fun t => t.locals.position.map Position.peakPct) = [some 800] := by
  obtain ⟨tr, c, run, stale⟩ := System.script_reaches (graduation eager false)
    (graduationStart eager 0)
    (warmUp 0 ++ buyTick readyNet 0 4 ++ price 0 9 10 ++ [.env (.advance (fromSecs 1))] ++
      go readyNet 0 7)
    (fun tr c => (∃ x ∈ tr, ∃ y ∈ exitPrice eager x.2, y.2.sampledAt < y.1.boughtAt) ∧
      c.tasks.map (fun t => t.locals.position.map Position.peakPct) = [some 800])
    (by decide +kernel)
  obtain ⟨⟨x, mem, y, used, late⟩, peak⟩ := of_decide_eq_true stale
  exact ⟨tr, c, run, fun fresh => absurd (fresh x mem y used) (not_le.mpr late), peak⟩

end HadesPsTrader.Tasks
