/- Module: HadesPsTrader/Runs/RugExit
   source: src/session.rs, src/rug.rs
   digest: A session leaves at the first rugged tick, with one sale of its open position. -/

import HadesPsTrader.Market.RugRule
import HadesPsTrader.Runs.Graduation
import HadesPsTrader.Runs.SessionPieces
import HadesPsTrader.Runs.SessionWalk

set_option autoImplicit false
set_option relaxedAutoImplicit false

namespace HadesPsTrader.Tasks

open HadesPsTrader.Market HadesPsTrader.Chain HadesPsTrader.Interaction

def PriceUpdate.figures (u : PriceUpdate) : ℚ × ℚ := (u.priceSol, u.poolSol)

def tickFigures : (o : Op) → Reply o → Option (ℚ × ℚ)
  | .select, .tick (some sample) => some sample.update.figures
  | _, _ => none

def Op.isTrade : Op → Bool
  | .call _ => true
  | .buy _ => true
  | .sellAll _ => true
  | _ => false

def rugSale (cfg : Market.Config) (reason : RugReason) (pos : Position) : List Op :=
  [.call (.trySell (.rugDetected reason)),
    .sellAll
      { mint := pos.mint
        symbol := pos.symbol
        slippagePct := cfg.trading.slippage
        priorityFeeSol := cfg.trading.priorityFeeSol
        maxRetries := cfg.trading.sellTxRetries }]

/-- The trades of a session from a rugged tick on. -/
def leavingTrades (cfg : Market.Config) (reason : RugReason) (position : Option Position) :
    List Op :=
  (position.map (rugSale cfg reason)).getD []

/-- Where a session is with its ticks. -/
inductive RugStage
  /-- Ahead of its first tick, or out of the loop without a rug. -/
  | apart
  /-- In the loop, past a tick that was clear. -/
  | watching
  /-- Past a rugged tick, with these trades still to come. -/
  | leaving (owed : List Op)

/-- A trade that is done is not owed any more. -/
def RugStage.traded : RugStage → RugStage
  | .leaving owed => .leaving owed.tail
  | stage => stage

/-- What is noted of the ticks of one session. -/
structure RugNotes where
  ticks : List (ℚ × ℚ) := []
  stage : RugStage := .apart

namespace RugNotes

variable (cfg : Market.Config)

def tick (g : RugNotes) (u : PriceUpdate) (position : Option Position) : RugNotes where
  ticks := g.ticks ++ [u.figures]
  stage := match (RugGuard.after (g.ticks ++ [u.figures])).isRugged cfg.rug u.priceSol
      u.poolSol with
    | none => .watching
    | some reason => .leaving (leavingTrades cfg reason position)

def next (g : RugNotes) (l : SessionLocals) : (o : Op) → Reply o → RugNotes
  | .select, .tick (some sample) => g.tick cfg sample.update l.position
  | .select, _ => { g with stage := .apart }
  | o, _ => if o.isTrade then { g with stage := g.stage.traded } else g

def Permits (g : RugNotes) (o : Op) : Prop :=
  match g.stage with
  | .apart => ∀ reason, o ≠ .call (.trySell (.rugDetected reason))
  | .watching => o.sellsForGood = false
  | .leaving owed => o.isSelect = false ∧ (o.isTrade = true → owed.head? = some o)

/-- A session that returns is not in its loop, and owes no trade. -/
def Over (g : RugNotes) : Prop := g.stage = .apart ∨ g.stage = .leaving []

end RugNotes

def rugProtocol (cfg : Market.Config) : Protocol RugNotes World SessionLocals Op Reply where
  coherent _ _ := True
  guard g _ o := g.Permits o
  valid _ _ _ _ _ := True
  next g _ l o r := g.next cfg l o r

section Walk

variable {cfg : Market.Config} {dryRun : Bool} {α : Type} {g : RugNotes} {l : SessionLocals}
  {mint : Pubkey} {now : Instant} {u : PriceUpdate}

namespace RugNotes

theorem next_aside_eq {o : Op} {r : Reply o} (aside : o.isSelect = false) :
    g.next cfg l o r = if o.isTrade then { g with stage := g.stage.traded } else g := by
  cases o with
  | select => cases aside
  | _ => rfl

theorem next_aside {o : Op} {r : Reply o} (aside : o.isSelect = false)
    (kept : o.isTrade = false ∨ g.stage.traded = g.stage) : g.next cfg l o r = g := by
  rw [next_aside_eq aside]
  split_ifs with trade
  · rcases kept with quiet | same
    · rw [quiet] at trade
      cases trade
    · rw [same]
  · rfl

theorem tick_cases (narrow : cfg.rug.minSamples < 2 ^ 32) (g : RugNotes) (u : PriceUpdate)
    (position : Option Position) :
    (cfg.rug.Due (g.ticks ++ [u.figures]) ∧ ∃ reason,
      (g.tick cfg u position).stage = .leaving (leavingTrades cfg reason position)) ∨
    (¬ cfg.rug.Due (g.ticks ++ [u.figures]) ∧ (g.tick cfg u position).stage = .watching) := by
  have judged : ((RugGuard.after (g.ticks ++ [u.figures])).isRugged cfg.rug u.priceSol
      u.poolSol).isSome = true ↔ cfg.rug.Due (g.ticks ++ [u.figures]) :=
    RugGuard.isRugged_after_iff narrow g.ticks u.figures
  rw [← judged, tick]
  cases (RugGuard.after (g.ticks ++ [u.figures])).isRugged cfg.rug u.priceSol u.poolSol with
  | none => exact .inr ⟨nofun, rfl⟩
  | some reason => exact .inl ⟨rfl, reason, rfl⟩

theorem next_ticks {o : Op} {r : Reply o} :
    (g.next cfg l o r).ticks = g.ticks ++ (tickFigures o r).toList := by
  have other (unread : tickFigures o r = none)
      (same : (g.next cfg l o r).ticks = g.ticks) :
      (g.next cfg l o r).ticks = g.ticks ++ (tickFigures o r).toList := by
    rw [same, unread]
    exact (List.append_nil _).symm
  cases o with
  | select =>
      match r with
      | .deadline => exact other rfl rfl
      | .tick none => exact other rfl rfl
      | .tick (some sample) => rfl
  | _ =>
      apply other rfl
      rw [next_aside_eq rfl]
      split_ifs <;> rfl

end RugNotes

def Op.isClear (o : Op) : Prop := o.isSelect = false ∧ o.sellsForGood = false

/-- The loop goes on: the last tick was clear, and the guard has seen all ticks. -/
structure Clear (g : RugNotes) (l : SessionLocals) : Prop where
  stage : g.stage = .watching
  guard : l.rugGuard = RugGuard.after g.ticks

theorem Clear.aside {l' : SessionLocals} (same : l'.rugGuard = l.rugGuard) (clear : Clear g l) :
    Clear g l' :=
  ⟨clear.stage, same.trans clear.guard⟩

theorem Clear.untraded {l' : SessionLocals} (same : l'.untraded = l.untraded)
    (clear : Clear g l) : Clear g l' := by
  have kept (l : SessionLocals) : l.untraded.rugGuard = l.rugGuard := rfl
  apply clear.aside
  rw [← kept, same, kept]

theorem next_clear {o : Op} {r : Reply o} (stage : g.stage = .watching) (clear : o.isClear) :
    g.next cfg l o r = g :=
  RugNotes.next_aside clear.1 (.inr (by rw [stage]; rfl))

theorem clear_keeps {m : SessionM α} (calm : ∀ g, Async.Steady World Op.isClear (Clear g) m) :
    Async.Keeps (rugProtocol cfg) Clear m := by
  intro g l clear
  have step (w : World) (l' : SessionLocals) (o : Op) (r : Reply o) (here : o.isClear) :
      (rugProtocol cfg).next g w l' o r = g := next_clear clear.stage here
  refine (calm g).wp clear (fun _ _ => trivial) ?_ step fun _ _ inside => inside
  intro l' o inside here
  change g.Permits o
  rw [RugNotes.Permits, inside.stage]
  exact here.2

theorem clear_gatedEntry {trigger : EntryTrigger} :
    Async.Keeps (rugProtocol cfg) Clear (gatedEntry cfg dryRun mint now trigger) := by
  apply clear_keeps
  intro g
  apply gatedEntry_steady
  · intro o trading kept
    refine ⟨?_, kept⟩
    cases o with
    | select => cases trading
    | _ => rfl
  · exact fun _ _ => Clear.untraded
  · exact ⟨rfl, rfl⟩

theorem clear_pnlExit {price : ℚ} :
    Async.Keeps (rugProtocol cfg) Clear (pnlExit cfg dryRun price) := by
  apply clear_keeps
  intro g
  apply pnlExit_steady
  · intro o unwinding kept
    refine ⟨?_, kept⟩
    cases o with
    | select => cases unwinding
    | _ => rfl
  · exact fun _ _ => Clear.untraded

theorem leaving_step {o : Op} {f : Reply o → SessionM α} {Q : RugNotes → SessionLocals → α → Prop}
    {owed : List Op} (leaving : g.stage = .leaving owed) (aside : o.isSelect = false)
    (quiet : o.isTrade = false) (rest : ∀ r, Async.wp (rugProtocol cfg) (f r) Q g l) :
    Async.wp (rugProtocol cfg) (Async.perform o >>= f) Q g l := by
  apply Async.wp_step
  · trivial
  · change g.Permits o
    rw [RugNotes.Permits, leaving]
    refine ⟨aside, ?_⟩
    rw [quiet]
    exact nofun
  · intro w r _
    have same : (rugProtocol cfg).next g w l o r = g := RugNotes.next_aside aside (.inl quiet)
    rw [same]
    exact rest r

theorem owed_step {o : Op} {f : Reply o → SessionM α} {Q : RugNotes → SessionLocals → α → Prop}
    {owed : List Op} (leaving : g.stage = .leaving (o :: owed)) (aside : o.isSelect = false)
    (trade : o.isTrade = true)
    (rest : ∀ r, Async.wp (rugProtocol cfg) (f r) Q { g with stage := .leaving owed } l) :
    Async.wp (rugProtocol cfg) (Async.perform o >>= f) Q g l := by
  apply Async.wp_step
  · trivial
  · change g.Permits o
    rw [RugNotes.Permits, leaving]
    exact ⟨aside, fun _ => rfl⟩
  · intro w r _
    have noted : (rugProtocol cfg).next g w l o r = { g with stage := .leaving owed } := by
      change g.next cfg l o r = _
      rw [RugNotes.next_aside_eq aside, if_pos trade, leaving]
      rfl
    rw [noted]
    exact rest r

theorem leaving_traderSellAll {p : SellAllParams}
    {f : Except BoxError (Option Signature) → SessionM α} {Q : RugNotes → SessionLocals → α → Prop}
    {owed : List Op} (leaving : g.stage = .leaving (.sellAll p :: owed))
    (rest : ∀ res, Async.wp (rugProtocol cfg) (f res) Q { g with stage := .leaving owed } l) :
    Async.wp (rugProtocol cfg) (traderSellAll cfg dryRun p >>= f) Q g l := by
  rw [traderSellAll]
  refine Async.wp_bind.mpr (owed_step leaving rfl rfl ?_)
  intro answers
  exact rest _

theorem leaving_sellForGood {reason : RugReason} {pct : Position → ℚ}
    (leaving : g.stage = .leaving (leavingTrades cfg reason l.position)) :
    Async.wp (rugProtocol cfg) (sellForGood cfg dryRun pct (.rugDetected reason))
      (fun g' l' _ => g'.stage = .leaving [] ∧ l'.position = none) g l := by
  rw [sellForGood, Async.wp_locals_bind]
  cases opened : l.position with
  | none =>
      rw [opened] at leaving
      exact ⟨leaving, opened⟩
  | some pos =>
      rw [opened] at leaving
      rw [Async.wp_assign_bind]
      refine Async.wp_bind.mpr ?_
      rw [trySell]
      refine owed_step leaving rfl rfl ?_
      intro called
      apply leaving_traderSellAll rfl
      intro res
      -- nothing is owed any more, whatever became of the sale
      have settled (done : Except BoxError Unit) :
          Async.wp (rugProtocol cfg) (pure done : SessionM (Except BoxError Unit))
            (fun g' l' _ => Async.wp (rugProtocol cfg) (do
              let _ ← fetchSub
              Async.assign SessionLocals.settle)
              (fun g'' l'' (_ : Unit) => g''.stage = .leaving [] ∧ l''.position = none) g' l')
            { ticks := g.ticks, stage := .leaving [] } l.take := by
        apply leaving_step rfl rfl rfl
        intro left
        exact ⟨rfl, rfl⟩
      match res with
      | .error e => exact settled (.error e)
      | .ok none => exact settled (.ok ())
      | .ok (some sig) =>
          apply leaving_step rfl rfl rfl
          intro balance
          apply leaving_step rfl rfl rfl
          intro noticed
          exact settled (.ok ())

/-- A session that leaves its loop: on a rugged tick without a position, or for another reason. -/
def LeftLoop (g : RugNotes) (l : SessionLocals) : Prop :=
  g.stage = .apart ∨ g.stage = .leaving [] ∧ l.position = none

/-- A session at the head of its loop. -/
structure AtHead (g : RugNotes) (l : SessionLocals) : Prop where
  stage : g.stage = .apart ∨ g.stage = .watching
  guard : l.rugGuard = RugGuard.after g.ticks

theorem Clear.atHead (clear : Clear g l) : AtHead g l := ⟨.inr clear.stage, clear.guard⟩

/-- What a round of the loop leads to. -/
def RoundEnds (g : RugNotes) (l : SessionLocals) : Option Unit → Prop
  | none => AtHead g l
  | some () => LeftLoop g l

theorem rug_onTick (guard : l.rugGuard = RugGuard.after g.ticks) :
    Async.wp (rugProtocol cfg) (onTick cfg dryRun mint u) RoundEnds
      (g.tick cfg u l.position) l := by
  have seen : l.rugGuard.observe u.priceSol u.poolSol =
      RugGuard.after (g.ticks ++ [u.figures]) := by
    rw [RugGuard.after_append, guard]
    rfl
  rw [onTick, Async.wp_assign_bind, Async.wp_locals_bind]
  dsimp only
  cases judged : (l.rugGuard.observe u.priceSol u.poolSol).isRugged cfg.rug u.priceSol
    u.poolSol with
  | some reason =>
      have leaving : (g.tick cfg u l.position).stage =
          .leaving (leavingTrades cfg reason l.position) := by
        rw [seen] at judged
        rw [RugNotes.tick, judged]
      refine Async.wp_bind.mpr (Async.wp_mono _ (leaving_sellForGood leaving) ?_)
      rintro g' l' _ ⟨stage, closed⟩
      exact .inr ⟨stage, closed⟩
  | none =>
      have clear : Clear (g.tick cfg u l.position) { l with
          lastPrice := some u.priceSol
          rugGuard := l.rugGuard.observe u.priceSol u.poolSol } := by
        refine ⟨?_, seen⟩
        rw [seen] at judged
        rw [RugNotes.tick, judged]
      have ticks : Async.Keeps (rugProtocol cfg) Clear (instantNow .tick : SessionM Instant) :=
        clear_keeps fun g => .perform ⟨rfl, rfl⟩
      have aside (g : RugNotes) (l l' : SessionLocals) (same : l.SameWatch l')
          (clear : Clear g l) : Clear g l' := clear.aside same.2
      have gated (now : Instant) (trigger : EntryTrigger) : Async.Keeps (rugProtocol cfg) Clear
          (gatedEntry cfg dryRun mint now trigger) := clear_gatedEntry
      refine Async.wp_bind.mpr (Async.wp_mono _ (clear_pnlExit _ _ clear) ?_)
      intro g₁ l₁ _ clear
      refine Async.wp_bind.mpr (Async.wp_mono _ (ticks _ _ clear) ?_)
      intro g₂ l₂ now clear
      refine Async.wp_bind.mpr (Async.wp_mono _ (dipBuyEntry_keeps aside gated _ _ clear) ?_)
      intro g₃ l₃ _ clear
      refine Async.wp_bind.mpr (Async.wp_mono _ (capitulationEntry_keeps aside gated _ _ clear) ?_)
      intro g₄ l₄ _ clear
      refine Async.wp_bind.mpr (Async.wp_mono _ (macdEntry_keeps aside gated _ _ clear) ?_)
      intro g₅ l₅ _ clear
      exact clear.atHead

theorem rug_sessionRound (head : AtHead g l) :
    Async.wp (rugProtocol cfg) (sessionRound cfg dryRun mint) RoundEnds g l := by
  rw [sessionRound]
  apply Async.wp_step
  · trivial
  · change g.Permits .select
    rw [RugNotes.Permits]
    rcases head.stage with apart | watching
    · rw [apart]
      exact nofun
    · rw [watching]
      rfl
  intro w event _
  match event with
  | .deadline => exact .inl rfl
  | .tick none => exact .inl rfl
  | .tick (some sample) => exact rug_onTick head.guard

theorem rug_forcedExit {pct : Position → ℚ} (left : LeftLoop g l) :
    Async.wp (rugProtocol cfg) (sellForGood cfg dryRun pct .forcedExit) (fun g _ _ => g.Over)
      g l := by
  rcases left with apart | ⟨leaving, closed⟩
  · have calm : Async.Steady World
        (fun o => o.isSelect = false ∧ ∀ reason, o ≠ .call (.trySell (.rugDetected reason)))
        (fun _ => True) (sellForGood cfg dryRun pct .forcedExit) := by
      apply sellForGood_steady
      · intro o unwinding kept
        cases o with
        | select => cases unwinding
        | call c =>
            refine ⟨rfl, ?_⟩
            rintro reason ⟨⟩
            cases kept
        | _ => exact ⟨rfl, nofun⟩
      · exact fun _ _ _ _ => trivial
      · exact ⟨rfl, nofun⟩
    apply calm.wp trivial
    · exact fun _ _ => trivial
    · intro l' o _ here
      change g.Permits o
      rw [RugNotes.Permits, apart]
      exact here.2
    · intro w l' o r here
      exact RugNotes.next_aside here.1 (.inr (by rw [apart]; rfl))
    · exact fun _ _ _ => .inl apart
  · rw [sellForGood, Async.wp_locals_bind, closed]
    exact .inr leaving

theorem rug_setup {o : Op} (setup : o.isSetup = true) :
    Async.Keeps (rugProtocol cfg) (fun g _ => g = {}) (Async.perform o : SessionM (Reply o)) := by
  apply Async.Keeps.perform
  · exact fun _ _ _ => trivial
  · rintro g l rfl reason same
    rw [same] at setup
    cases setup
  · rintro g w l r rfl _
    apply RugNotes.next_aside _ (.inr rfl)
    cases o with
    | select => cases setup
    | _ => rfl

theorem rug_runSession :
    Async.wp (rugProtocol cfg) (runSession cfg dryRun mint) (fun g _ _ => g.Over) {} l := by
  rw [runSession]
  apply (rug_setup rfl).step rfl
  rintro _ sessionStart rfl
  rw [Async.wp_locals_bind]
  apply (rug_setup rfl).step rfl
  rintro _ polled rfl
  rw [Async.wp_assign_bind]
  apply (rug_setup rfl).step rfl
  rintro _ armed rfl
  refine Async.wp_bind.mpr (Async.wp_loop AtHead ⟨.inl rfl, rfl⟩ (fun _ _ _ => trivial) ?_)
  intro g l head
  refine Async.wp_mono _ (rug_sessionRound head) ?_
  intro g' l' x ends
  match x with
  | none => exact ends
  | some () => exact rug_forcedExit ends

theorem rug_sessionTask :
    Async.wp (rugProtocol cfg) (sessionTask cfg dryRun) (fun g _ _ => g.Over) {} l := by
  apply sessionTask_wp (fun _ => rug_setup rfl) ?_ ?_ (fun _ => rug_setup rfl)
    (fun _ _ _ _ here => here) rfl
  · rintro g l rfl
    exact .inl rfl
  · rintro mint g l _ rfl
    exact rug_runSession

end Walk

section Runs

def ticksRead (i : Nat) (tr : GradTrace) : List (ℚ × ℚ) := events i tickFigures tr

def tradesDone (i : Nat) (tr : GradTrace) : List Op :=
  events i (fun o _ => if o.isTrade then some o else none) tr

/-- What session `i` does about a tick with locals `l`, and all of the run after it. -/
structure RugExits (cfg : Market.Config) (c : GradConfig) (i : Nat) (l : SessionLocals)
    (ticks : List (ℚ × ℚ)) (post : GradTrace) : Prop where
  /-- On a rugged tick it reads no more ticks, and sells its open position once. -/
  leaves : cfg.rug.Due ticks → performed i Op.isSelect post = 0 ∧
    ∃ reason, tradesDone i post <+: leavingTrades cfg reason l.position ∧
      ∀ t, c.tasks[i]? = some t → t.finished = true →
        tradesDone i post = leavingTrades cfg reason l.position
  /-- On any other tick its loop goes on to the next select, with no sale for good before it. -/
  stays : ¬ cfg.rug.Due ticks →
    (∀ t, c.tasks[i]? = some t → t.finished = true → 0 < performed i Op.isSelect post) ∧
    ∀ before w l' o r after, post = before ++ (w, .perform i l' o r) :: after →
      performed i Op.isSelect before = 0 → o.sellsForGood = false

variable {cfg : Market.Config} {dryRun : Bool} {start : Instant} {admits : GradAdmit}
  {pre post tr : GradTrace} {c : GradConfig} {i : Nat}

def rugNotes (cfg : Market.Config) (i : Nat) (tr : GradTrace) : RugNotes :=
  ghost (rugProtocol cfg) {} i tr

theorem session_leaves (run : GradRun cfg dryRun start admits tr c) :
    ∀ i t, c.tasks[i]? = some t →
      Proc.wp (rugProtocol cfg) t (fun g _ _ => g.Over) (rugNotes cfg i tr) := by
  refine graduation_protocol (rugProtocol cfg) (fun g _ _ => g.Over) {} ?_ ?_ run
  · exact fun ev now => rug_sessionTask
  · intros
    trivial

theorem rug_permits (run : GradRun cfg dryRun start admits tr c) {w : World} {l : SessionLocals}
    {o : Op} {r : Reply o} (split : tr = pre ++ (w, .perform i l o r) :: post) :
    (rugNotes cfg i pre).Permits o := by
  obtain ⟨c₁, c₂, before, _, _, moved⟩ := run.upto pre w _ post split
  cases moved with
  | perform pending granted => exact (session_leaves before i _ pending).2.1

theorem rugNotes_self {w : World} {l : SessionLocals} {o : Op} {r : Reply o} :
    rugNotes cfg i (tr ++ [(w, .perform i l o r)]) = (rugNotes cfg i tr).next cfg l o r :=
  ghost_perform_self i tr w l o r

theorem rugNotes_aside {w : World} {e : GradLabel} (aside : ∀ l o r, e ≠ .perform i l o r) :
    rugNotes cfg i (tr ++ [(w, e)]) = rugNotes cfg i tr :=
  ghost_aside aside tr w

theorem rugNotes_ticks (tr : GradTrace) : (rugNotes cfg i tr).ticks = ticksRead i tr := by
  induction tr using List.reverseRecOn with
  | nil => rfl
  | append_singleton tr x ih =>
    obtain ⟨w, e⟩ := x
    rcases e.own_or_aside i with ⟨l, o, r, rfl⟩ | aside
    · rw [rugNotes_self, RugNotes.next_ticks, ticksRead, events_self, ih]
      rfl
    · rw [rugNotes_aside aside, ticksRead, events_aside aside]
      exact ih

theorem leaving_after {owed : List Op} (leaving : (rugNotes cfg i pre).stage = .leaving owed)
    (permits : ∀ mid w l o r rest, post = mid ++ (w, .perform i l o r) :: rest →
      (rugNotes cfg i (pre ++ mid)).Permits o) :
    ∃ left, (rugNotes cfg i (pre ++ post)).stage = .leaving left ∧
      tradesDone i post ++ left = owed ∧ performed i Op.isSelect post = 0 := by
  induction post using List.reverseRecOn with
  | nil => exact ⟨owed, by rw [List.append_nil]; exact leaving, rfl, rfl⟩
  | append_singleton post x ih =>
    obtain ⟨left, stage, done, unread⟩ := ih fun mid w l o r rest split =>
      permits mid w l o r (rest ++ [x]) (by rw [split]; simp)
    rw [← List.append_assoc]
    obtain ⟨w, e⟩ := x
    rcases e.own_or_aside i with ⟨l, o, r, rfl⟩ | aside
    · have permitted := permits post w l o r [] rfl
      rw [RugNotes.Permits, stage] at permitted
      obtain ⟨aside, owes⟩ := permitted
      have unread' : performed i Op.isSelect (post ++ [(w, .perform i l o r)]) = 0 := by
        rw [performed_self, aside, unread]
        rfl
      rw [rugNotes_self, RugNotes.next_aside_eq aside, tradesDone, events_self]
      cases trade : o.isTrade with
      | false => exact ⟨left, stage, by simpa [tradesDone] using done, unread'⟩
      | true =>
        -- the trade is the first of those that are owed
        cases left with
        | nil => cases owes trade
        | cons first rest =>
          cases owes trade
          refine ⟨rest, ?_, ?_, unread'⟩
          · rw [if_pos rfl, stage]
            rfl
          · rw [← done]
            simp [tradesDone]
    · rw [rugNotes_aside aside, tradesDone, events_aside aside, performed_aside aside]
      exact ⟨left, stage, done, unread⟩

theorem watching_after (watching : (rugNotes cfg i pre).stage = .watching)
    (unread : performed i Op.isSelect post = 0) :
    (rugNotes cfg i (pre ++ post)).stage = .watching := by
  induction post using List.reverseRecOn with
  | nil =>
    rw [List.append_nil]
    exact watching
  | append_singleton post x ih =>
    rw [← List.append_assoc]
    obtain ⟨w, e⟩ := x
    rcases e.own_or_aside i with ⟨l, o, r, rfl⟩ | aside
    · rw [performed_self] at unread
      have stage := ih (by omega)
      have aside : o.isSelect = false := by
        cases read : o.isSelect with
        | false => rfl
        | true =>
          rw [read] at unread
          cases unread
      rw [rugNotes_self, RugNotes.next_aside aside (.inr (by rw [stage]; rfl))]
      exact stage
    · rw [performed_aside aside] at unread
      rw [rugNotes_aside aside]
      exact ih unread

theorem exits_on_rug (cfg : Market.Config) (narrow : cfg.rug.minSamples < 2 ^ 32) (dryRun : Bool)
    (start : Instant) (tr : GradTrace) (c : GradConfig)
    (run : GradRun cfg dryRun start always tr c) (pre : GradTrace) (w : World) (i : Nat)
    (l : SessionLocals) (sample : Sample) (post : GradTrace)
    (split : tr = pre ++ (w, .perform i l .select (.tick (some sample))) :: post) :
    RugExits cfg c i l (ticksRead i pre ++ [sample.update.figures]) post := by
  -- the trace up to the tick, with the notes right after it
  obtain ⟨upto, read⟩ : ∃ upto, upto = pre ++ [(w, .perform i l .select (.tick (some sample)))] :=
    ⟨_, rfl⟩
  have regrouped : tr = upto ++ post := by
    rw [split, read, List.append_assoc]
    rfl
  have noted : rugNotes cfg i upto = (rugNotes cfg i pre).tick cfg sample.update l.position := by
    rw [read]
    exact rugNotes_self
  have judged := RugNotes.tick_cases narrow (rugNotes cfg i pre) sample.update l.position
  rw [← noted, rugNotes_ticks] at judged
  have ended (t : TaskProc SessionLocals) (here : c.tasks[i]? = some t)
      (finished : t.finished = true) : (rugNotes cfg i (upto ++ post)).Over := by
    rw [← regrouped]
    exact (Proc.returned_of_finished (session_leaves run i t here) finished).choose_spec
  have permits (mid : GradTrace) (w' : World) (l' : SessionLocals) (o : Op) (r : Reply o)
      (rest : GradTrace) (after : post = mid ++ (w', .perform i l' o r) :: rest) :
      (rugNotes cfg i (upto ++ mid)).Permits o := by
    have cut : tr = (upto ++ mid) ++ (w', .perform i l' o r) :: rest := by
      rw [regrouped, after, List.append_assoc]
    exact rug_permits run cut
  constructor
  · intro due
    rcases judged with ⟨_, reason, leaving⟩ | ⟨clear, _⟩
    case inr => exact absurd due clear
    obtain ⟨left, stage, done, unread⟩ := leaving_after leaving permits
    refine ⟨unread, reason, ⟨left, done⟩, ?_⟩
    intro t here finished
    rcases ended t here finished with apart | paid
    · rw [stage] at apart
      cases apart
    · rw [stage] at paid
      cases paid
      rw [← done, List.append_nil]
  · intro clear
    rcases judged with ⟨due, _⟩ | ⟨_, watching⟩
    case inl => exact absurd due clear
    constructor
    · intro t here finished
      apply Nat.pos_of_ne_zero
      intro unread
      have stage := watching_after watching unread
      rcases ended t here finished with apart | paid
      · rw [stage] at apart
        cases apart
      · rw [stage] at paid
        cases paid
    · intro before w' l' o r after later unread
      have permitted := permits before w' l' o r after later
      rw [RugNotes.Permits, watching_after watching unread] at permitted
      exact permitted

end Runs

def tickRead : GradLabel → Option (Nat × SessionLocals × Sample)
  | .perform i l .select (.tick (some sample)) => some (i, l, sample)
  | _ => none

theorem eq_of_tickRead {e : GradLabel} {i : Nat} {l : SessionLocals} {sample : Sample}
    (h : tickRead e = some (i, l, sample)) : e = .perform i l .select (.tick (some sample)) := by
  unfold tickRead at h
  split at h
  · cases h
    rfl
  · cases h

/-- The rug guard judges from the sixth tick on. -/
def wary : Market.Config := { eager with rug := { minSamples := 6 } }

theorem exits_on_rug_drained_pool : ∃ tr c pre w l sample post,
    tr = pre ++ (w, .perform 0 l .select (.tick (some sample))) :: post ∧
    l.position.isSome = true ∧ (tradesDone 0 post).length = 2 ∧
    RugExits wary c 0 l (ticksRead 0 pre ++ [sample.update.figures]) post := by
  obtain ⟨tr, c, run, seen⟩ := System.script_reaches (graduation wary false)
    (graduationStart wary 0)
    (warmUp 0 ++ buyTick readyNet 0 9 ++ price 0 1 1 ++ go readyNet 0 7)
    (fun tr _ => ((tr[42]?.bind fun x => tickRead x.2).any fun x =>
      x.1 = 0 && x.2.1.position.isSome) && (tradesDone 0 (tr.drop 43)).length = 2)
    (by decide +kernel)
  rw [Bool.and_eq_true, Option.any_eq_true, decide_eq_true_eq] at seen
  obtain ⟨⟨⟨i, l, sample⟩, read, opened⟩, sold⟩ := seen
  obtain ⟨⟨w, e⟩, here, read⟩ := Option.bind_eq_some_iff.mp read
  rw [Bool.and_eq_true, decide_eq_true_eq] at opened
  obtain ⟨rfl, opened⟩ := opened
  obtain ⟨inside, there⟩ := List.getElem?_eq_some_iff.mp here
  have split : tr = tr.take 42 ++ (w, .perform 0 l .select (.tick (some sample))) ::
      tr.drop 43 := by
    rw [← eq_of_tickRead read, ← there, ← List.drop_eq_getElem_cons inside, List.take_append_drop]
  exact ⟨tr, c, tr.take 42, w, l, sample, tr.drop 43, split, opened, sold,
    exits_on_rug wary (by decide) false 0 tr c run _ w 0 l sample _ split⟩

end HadesPsTrader.Tasks
