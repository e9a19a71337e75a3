/- Module: HadesPsTrader/Runs/EntryDiscipline
   source: src/session.rs
   digest: When a session calls `try_buy`, and how its buys and sells follow one another. -/

import Mathlib.Data.List.Chain
import HadesPsTrader.Runs.Graduation

set_option autoImplicit false
set_option relaxedAutoImplicit false

namespace HadesPsTrader.Tasks

open HadesPsTrader.Market HadesPsTrader.Chain HadesPsTrader.Interaction

inductive Trade
  | bought | sold
  deriving DecidableEq

/-- A buy comes first, and no trade comes twice in a row. -/
def Alternate (trades : List Trade) : Prop :=
  trades.head? ≠ some .sold ∧ trades.IsChain (· ≠ ·)

instance (trades : List Trade) : Decidable (Alternate trades) :=
  inferInstanceAs (Decidable (_ ∧ _))

theorem alternate_nil : Alternate [] := by decide

theorem Alternate.buy {trades : List Trade} (h : Alternate trades)
    (last : trades.getLast? ≠ some .bought) : Alternate (trades ++ [.bought]) := by
  obtain ⟨head, chain⟩ := h
  refine ⟨?_, List.isChain_append.mpr ⟨chain, List.isChain_singleton _, ?_⟩⟩
  · cases trades with
    | nil => simp
    | cons t ts => exact head
  · rintro t ht _ ⟨⟩ rfl
    exact last ht

theorem Alternate.sell {trades : List Trade} (h : Alternate trades)
    (last : trades.getLast? = some .bought) : Alternate (trades ++ [.sold]) := by
  obtain ⟨head, chain⟩ := h
  refine ⟨?_, List.isChain_append.mpr ⟨chain, List.isChain_singleton _, ?_⟩⟩
  · cases trades with
    | nil => cases last
    | cons t ts => exact head
  · rintro t ht _ ⟨⟩
    obtain rfl : t = .bought := Option.some.inj (ht.symm.trans last)
    simp

section Trades

variable (cfg : Market.Config) (dryRun : Bool)

/-- A live `trader::buy`, whatever becomes of it, and a completed sell. -/
def liveTrade : (o : Op) → Reply o → Option Trade
  | .buy p, answers => match (Chain.buy (jitoSettings cfg) p dryRun answers).result with
    | .ok (some _) => some .bought
    | .ok none => none
    | .error _ => none
  | .sellAll p, answers => if soldOk cfg dryRun p answers then some .sold else none
  | _, _ => none

/-- A buy that was turned into a position, and a completed sell. -/
def trackedTrade : (o : Op) → Reply o → Option Trade
  | .notify (.bought ..), _ => some .bought
  | .sellAll p, answers => if soldOk cfg dryRun p answers then some .sold else none
  | _, _ => none

/-- A buy that was turned into a position, and an attempted sell. -/
def attemptedTrade : (o : Op) → Reply o → Option Trade
  | .notify (.bought ..), _ => some .bought
  | .sellAll _, _ => some .sold
  | _, _ => none

def Op.isTryBuy : Op → Bool
  | .call (.tryBuy _) => true
  | _ => false

end Trades

section Diary

variable {cfg : Market.Config} {dryRun : Bool} {g : SessionDiary} {w : World} {l : SessionLocals}
  {o : Op} {r : Reply o}

variable (dryRun) in
theorem holding_step (permitted : Permits cfg g l o) (coherent : Coherent g l) :
    (g.holding = false ∧ g.abandoned = false ∧ (g.next cfg dryRun w l o r).holding = true ∧
      trackedTrade cfg dryRun o r = some .bought ∧ attemptedTrade o r = some .bought) ∨
    (g.holding = true ∧ (g.next cfg dryRun w l o r).holding = false ∧
      trackedTrade cfg dryRun o r = some .sold ∧ attemptedTrade o r = some .sold) ∨
    (g.holding = true ∧ ((g.next cfg dryRun w l o r).holding = true ∨
        (g.next cfg dryRun w l o r).abandoned = true) ∧
      trackedTrade cfg dryRun o r = none ∧ attemptedTrade o r = some .sold) ∨
    ((g.next cfg dryRun w l o r).holding = g.holding ∧
      (g.next cfg dryRun w l o r).abandoned = g.abandoned ∧
      trackedTrade cfg dryRun o r = none ∧ attemptedTrade o r = none) := by
  cases o with
  | notify n =>
      cases n with
      | bought => exact .inl ⟨permitted.1, permitted.2.1, rfl, rfl, rfl⟩
      | _ => exact .inr (.inr (.inr ⟨rfl, rfl, rfl, rfl⟩))
  | sellAll p =>
      have holding := coherent.holding_of_sellAll permitted
      refine .inr ?_
      cases sold : soldOk cfg dryRun p r with
      | true => exact .inl ⟨holding, by simp [SessionDiary.entry, SessionDiary.sale, sold],
          by simp [trackedTrade, sold], rfl⟩
      | false =>
          refine .inr (.inl ⟨holding, ?_, by simp [trackedTrade, sold], rfl⟩)
          cases exit : g.reason.any SellReason.isExit <;>
            simp [SessionDiary.entry, SessionDiary.sale, sold, exit, holding]
  | call c => cases c <;> exact .inr (.inr (.inr ⟨rfl, rfl, rfl, rfl⟩))
  | now site => cases site <;> exact .inr (.inr (.inr ⟨rfl, rfl, rfl, rfl⟩))
  | spendCheck now amountSol => cases r <;> exact .inr (.inr (.inr ⟨rfl, rfl, rfl, rfl⟩))
  | _ => exact .inr (.inr (.inr ⟨rfl, rfl, rfl, rfl⟩))

end Diary

section Runs

variable {cfg : Market.Config} {dryRun : Bool} {start : Instant} {admits : GradAdmit}
  {tr : GradTrace} {c : GradConfig}

/-- The trades of session `i`, against what its diary says about the position. -/
structure TradesKept (cfg : Market.Config) (dryRun : Bool) (i : Nat) (tr : GradTrace) : Prop where
  alternate : Alternate (events i (trackedTrade cfg dryRun) tr)
  bought : (events i (trackedTrade cfg dryRun) tr).getLast? = some .bought →
    (diary cfg dryRun i tr).holding = true ∨ (diary cfg dryRun i tr).abandoned = true
  holding : (diary cfg dryRun i tr).holding = true →
    (events i (trackedTrade cfg dryRun) tr).getLast? = some .bought
  unsold : (events i attemptedTrade tr).getLast? = some .bought →
    (diary cfg dryRun i tr).holding = true

theorem trades_kept (run : GradRun cfg dryRun start admits tr c) (i : Nat) :
    TradesKept cfg dryRun i tr := by
  apply run.invariant (fun tr _ => TradesKept cfg dryRun i tr)
  · exact ⟨alternate_nil, nofun, nofun, nofun⟩
  intro tr c e c' before kept _ moved
  cases moved with
  | @perform j l o resume r s' pending granted =>
      rcases eq_or_ne j i with rfl | other
      · obtain ⟨alternate, bought, holding, unsold⟩ := kept
        rcases holding_step dryRun (w := c.shared) (r := r)
            (session_permits before pending) (session_stands before pending) with
          ⟨free, sound, now, tracked, attempted⟩ | ⟨held, now, tracked, attempted⟩ |
          ⟨held, now, tracked, attempted⟩ | ⟨same, kept, tracked, attempted⟩
        -- a position was set up
        · refine ⟨?_, ?_, ?_, ?_⟩ <;>
            simp only [events_self, diary_self, tracked, attempted, Option.toList_some, now]
          · refine alternate.buy ?_
            intro last
            rcases bought last with h | h
            · rw [h] at free; cases free
            · rw [h] at sound; cases sound
          · simp
          · simp
          · simp
        -- it was sold
        · refine ⟨?_, ?_, ?_, ?_⟩ <;>
            simp only [events_self, diary_self, tracked, attempted, Option.toList_some, now]
          · exact alternate.sell (holding held)
          · simp
          · simp
          · simp
        -- a sell failed
        · refine ⟨?_, ?_, ?_, ?_⟩ <;>
            simp only [events_self, diary_self, tracked, attempted, Option.toList_some,
              Option.toList_none, List.append_nil]
          · exact alternate
          · exact fun _ => now
          · exact fun _ => holding held
          · simp
        · refine ⟨?_, ?_, ?_, ?_⟩ <;>
            simp only [events_self, diary_self, tracked, attempted, Option.toList_none,
              List.append_nil, same, kept]
          · exact alternate
          · exact bought
          · exact holding
          · exact unsold
      · obtain ⟨alternate, bought, holding, unsold⟩ := kept
        constructor <;> simpa only [events_other other, diary_other other]
  | unroll pending =>
      obtain ⟨alternate, bought, holding, unsold⟩ := kept
      constructor <;> simpa only [events_unroll, diary_unroll]
  | env granted =>
      obtain ⟨alternate, bought, holding, unsold⟩ := kept
      constructor <;> simpa only [events_env, diary_env]

/-- The answer `e` of a select of session `i`, given at some step; since then the session made no
other select and, unless it `called`, no `try_buy`. -/
def EventOrigin (i : Nat) (e : SessionEvent) (called : Bool) (tr : GradTrace) : Prop :=
  ∃ (tr₁ : GradTrace) (w : World) (l : SessionLocals) (tr₂ : GradTrace),
    tr = tr₁ ++ (w, .perform i l .select e) :: tr₂ ∧
    (∃ w', w.answerSelect i e = some w') ∧ performed i Op.isSelect tr₂ = 0 ∧
    (called = false → performed i Op.isTryBuy tr₂ = 0)

private theorem EventOrigin.later {i : Nat} {e : SessionEvent} {called called' : Bool}
    (origin : EventOrigin i e called tr) {x : World × GradLabel}
    (calls : called' = false → called = false)
    (select : ∀ tr₂ : GradTrace,
      performed i Op.isSelect (tr₂ ++ [x]) = performed i Op.isSelect tr₂)
    (call : called' = false → ∀ tr₂ : GradTrace,
      performed i Op.isTryBuy (tr₂ ++ [x]) = performed i Op.isTryBuy tr₂) :
    EventOrigin i e called' (tr ++ [x]) := by
  obtain ⟨tr₁, w, l, tr₂, rfl, answered, selects, tries⟩ := origin
  refine ⟨tr₁, w, l, tr₂ ++ [x], ?_, answered, ?_, ?_⟩
  · rw [List.append_assoc, List.cons_append]
  · rw [select, selects]
  · intro fresh
    rw [call fresh, tries (calls fresh)]

theorem event_origin (run : GradRun cfg dryRun start admits tr c) {i : Nat} {e : SessionEvent} :
    (diary cfg dryRun i tr).event = some e →
      EventOrigin i e (diary cfg dryRun i tr).called tr := by
  apply run.invariant (fun tr _ => (diary cfg dryRun i tr).event = some e →
    EventOrigin i e (diary cfg dryRun i tr).called tr)
  · intro event
    cases event
  intro tr c e' c' before ih _ moved
  -- the entries of a step that is neither a select nor a call
  have later {x : World × GradLabel} {g' : SessionDiary}
      (same : g'.event = (diary cfg dryRun i tr).event)
      (calls : g'.called = false → (diary cfg dryRun i tr).called = false)
      (select : ∀ tr₂ : GradTrace,
        performed i Op.isSelect (tr₂ ++ [x]) = performed i Op.isSelect tr₂)
      (call : g'.called = false → ∀ tr₂ : GradTrace,
        performed i Op.isTryBuy (tr₂ ++ [x]) = performed i Op.isTryBuy tr₂) :
      g'.event = some e → EventOrigin i e g'.called (tr ++ [x]) := by
    intro event
    rw [same] at event
    exact (ih event).later calls select call
  cases moved with
  | @perform j l o resume r s' pending granted =>
      rcases eq_or_ne j i with rfl | other
      · rw [diary_self]
        cases o with
        | select =>
            intro event
            obtain rfl : r = e := Option.some.inj event
            exact ⟨tr, c.shared, l, [], rfl, ⟨s', granted⟩, rfl, fun _ => rfl⟩
        | call call =>
            cases call with
            | tryBuy trigger => exact later rfl nofun (fun _ => performed_self) nofun
            | _ => exact later rfl id (fun _ => performed_self) fun _ _ => performed_self
        | now site =>
            cases site <;> exact later rfl id (fun _ => performed_self) fun _ _ => performed_self
        | notify n =>
            cases n <;> exact later rfl id (fun _ => performed_self) fun _ _ => performed_self
        | spendCheck now amountSol =>
            cases r <;> exact later rfl id (fun _ => performed_self) fun _ _ => performed_self
        | _ => exact later rfl id (fun _ => performed_self) fun _ _ => performed_self
      · rw [diary_other other]
        exact later rfl id (fun _ => performed_other other) fun _ _ => performed_other other
  | unroll pending =>
      rw [diary_unroll]
      exact later rfl id (fun _ => performed_unroll) fun _ _ => performed_unroll
  | env granted =>
      rw [diary_env]
      exact later rfl id (fun _ => performed_env _) fun _ _ => performed_env _

/-- What holds when session `i`, with locals `l`, calls `try_buy`. -/
structure EntryCall (cfg : Market.Config) (dryRun : Bool) (tr : GradTrace) (c : GradConfig)
    (i : Nat) (l : SessionLocals) (trigger : EntryTrigger) : Prop where
  /-- Nothing is open, and nothing is being sold. -/
  position : l.position = none ∧ l.selling = none
  trigger : trigger = entryTrigger cfg
  /-- The cooldown since the last successful PnL sell is over. -/
  cooled : ∀ soldAt, (diary cfg dryRun i tr).pnlSoldAt = some soldAt →
    soldAt + fromSecs cfg.macd.cooldownSecs ≤ c.shared.clock
  /-- The select of this iteration answered with a price while the deadline was not ready; the
  iteration has not called `try_buy` before, and its price is no rug. -/
  iteration : ∃ tr₁ w l₁ sample tr₂,
    tr = tr₁ ++ (w, .perform i l₁ .select (.tick (some sample))) :: tr₂ ∧
    (w.feeds i).fired = false ∧ performed i Op.isSelect tr₂ = 0 ∧
    performed i Op.isTryBuy tr₂ = 0 ∧
    l.rugGuard.isRugged cfg.rug sample.update.priceSol sample.update.poolSol = none

theorem entry_call (run : GradRun cfg dryRun start admits tr c) {i : Nat} {l : SessionLocals}
    {trigger : EntryTrigger} {resume : Unit → TaskProc SessionLocals}
    (here : c.tasks[i]? = some (.op l (.call (.tryBuy trigger)) resume)) :
    EntryCall cfg dryRun tr c i l trigger := by
  obtain ⟨position, selling, _, fresh, _, chosen, cooled, sample, event, sound⟩ :=
    session_permits run here
  obtain ⟨tr₁, w, l₁, tr₂, split, ⟨w', answered⟩, selects, calls⟩ := event_origin run event
  have waiting : (w.feeds i).fired = false := by
    simp only [World.answerSelect] at answered
    split_ifs at answered with fired
    simpa using fired
  exact ⟨⟨position, selling⟩, chosen, fun s sold => (cooled s sold).trans (diary_seen_le run i),
    tr₁, w, l₁, sample, tr₂, split, waiting, selects, calls fresh, sound⟩

structure EntriesDisciplined (cfg : Market.Config) (dryRun : Bool) (tr : GradTrace)
    (c : GradConfig) : Prop where
  calls : ∀ i l trigger resume, c.tasks[i]? = some (.op l (.call (.tryBuy trigger)) resume) →
    EntryCall cfg dryRun tr c i l trigger
  /-- A position for which no sell was tried since it was bought is still there. -/
  kept : ∀ i t, c.tasks[i]? = some t → (events i attemptedTrade tr).getLast? = some .bought →
    t.locals.position.isSome ∨ t.locals.selling.isSome
  /-- Buys that yield a position and completed sells alternate. -/
  alternate : ∀ i, Alternate (events i (trackedTrade cfg dryRun) tr)

theorem entries_disciplined (cfg : Market.Config) (dryRun : Bool) (start : Instant)
    (tr : GradTrace) (c : GradConfig) (run : GradRun cfg dryRun start always tr c) :
    EntriesDisciplined cfg dryRun tr c where
  calls _ _ _ _ here := entry_call run here
  kept i _ here last := (session_coherent run here).carried ((trades_kept run i).unsold last)
  alternate i := (trades_kept run i).alternate

end Runs

theorem entries_disciplined_one_buy : ∃ tr c,
    events 0 (trackedTrade eager false) tr = [.bought] ∧ EntriesDisciplined eager false tr c := by
  obtain ⟨tr, c, run, bought⟩ := System.script_reaches (graduation eager false)
    (graduationStart eager 0) (warmUp 0 ++ buyTick readyNet 0 9)
    (fun tr _ => events 0 (trackedTrade eager false) tr = [.bought]) (by decide +kernel)
  exact ⟨tr, c, of_decide_eq_true bought, entries_disciplined eager false 0 tr c run⟩

/-- A live buy whose balance fetch fails is orphaned; the next dip buys again, with no sell between
the two. -/
theorem orphaned_buys_repeat : ¬ ∀ (cfg : Market.Config) (dryRun : Bool) (start : Instant)
    (tr : GradTrace) (c : GradConfig), GradRun cfg dryRun start always tr c →
      ∀ i, Alternate (events i (liveTrade cfg dryRun) tr) := by
  intro claimed
  obtain ⟨tr, c, run, twice⟩ := System.script_reaches (graduation eager false)
    (graduationStart eager 0) (warmUp 0 ++ buyTick blindNet 0 10 ++ buyTick blindNet 0 10)
    (fun tr _ => events 0 (liveTrade eager false) tr = [.bought, .bought]) (by decide +kernel)
  have alternate := claimed eager false 0 tr c run 0
  rw [of_decide_eq_true twice] at alternate
  exact absurd alternate (by decide)

end HadesPsTrader.Tasks
