/- Module: HadesPsTrader/Runs/Cooldowns
   source: src/main.rs, src/config.rs
   digest: What arms the per-wallet and the per-mint cooldown of the copy loop. -/

import HadesPsTrader.Runs.CopyAdmission

set_option autoImplicit false
set_option relaxedAutoImplicit false

namespace HadesPsTrader.Tasks

open HadesPsTrader.Market HadesPsTrader.Chain HadesPsTrader.Interaction

/-! ### The gates at one frame -/

/-- The test of both gates: the time in the map is less than a cooldown back. -/
def coolingDown (last : Option Instant) (now : Instant) (cooldown : Duration) : Bool :=
  last.any fun last => durationSince now last < cooldown

section Cooling

variable {last : Option Instant} {now later : Instant} {cooldown : Duration}

theorem coolingDown_iff (past : ∀ t, last = some t → t ≤ now) :
    coolingDown last now cooldown = true ↔ ∃ t, last = some t ∧ now < t + cooldown := by
  cases last with
  | none => simp [coolingDown]
  | some t =>
      have before : t ≤ now := past t rfl
      have same : durationSince now t < cooldown ↔ now < t + cooldown :=
        Nat.sub_lt_iff_lt_add' before
      simp [coolingDown, same]

theorem coolingDown_later (cooled : coolingDown last now cooldown = false) (le : now ≤ later) :
    coolingDown last later cooldown = false := by
  cases last with
  | none => rfl
  | some t =>
      have elapsed : durationSince now t ≤ durationSince later t := Nat.sub_le_sub_right le t
      simp only [coolingDown, Option.any_some, decide_eq_false_iff_not, not_lt] at cooled ⊢
      exact cooled.trans elapsed

end Cooling

/-- A buy on a pump-amm pool, which is what reaches the gates. -/
def PumpBuy (t : AlphaTrade) : Prop := t.txType = "buy" ∧ t.isPumpswap = true

/-- What becomes of a buy frame at the gates. -/
inductive GateOutcome
  | walletDrop
  | mintDrop
  | copied
  deriving DecidableEq

namespace World

variable (w : World) (cc : CopyTradeConfig) (t : AlphaTrade) (pause : Duration)

def walletCooling : Bool :=
  coolingDown (w.recentWallet t.trader) w.clock (fromSecs cc.perWalletCooldownSecs)

def mintCooling : Bool :=
  coolingDown (w.recent t.mint) (w.clock + pause) (fromSecs cc.reentryCooldownSecs)

def gateOutcome : GateOutcome :=
  if w.walletCooling cc t then .walletDrop
  else if w.mintCooling cc t pause then .mintDrop
  else .copied

theorem gateFrame_eq : w.gateFrame cc t pause = match w.gateOutcome cc t pause with
    | .walletDrop => (w, false)
    | .mintDrop => ({ w with
        recentWallet := Function.update w.recentWallet t.trader (some w.clock)
        clock := w.clock + pause }, false)
    | .copied => ({ w with
        recentWallet := Function.update w.recentWallet t.trader (some w.clock)
        clock := w.clock + pause
        recent := Function.update w.recent t.mint (some (w.clock + pause)) }, true) := by
  rw [gateOutcome]
  cases wallet : w.walletCooling cc t with
  | true =>
      rw [walletCooling, coolingDown] at wallet
      simp [gateFrame, wallet]
  | false =>
      cases mint : w.mintCooling cc t pause with
      | true =>
          rw [walletCooling, coolingDown] at wallet
          rw [mintCooling, coolingDown] at mint
          simp [gateFrame, wallet, mint]
      | false =>
          rw [walletCooling, coolingDown] at wallet
          rw [mintCooling, coolingDown] at mint
          simp [gateFrame, wallet, mint]

/-- A frame passes the first gate, which notes it, and is stopped by the second. -/
def StoppedAtMint : Prop := w.walletCooling cc t = false ∧ w.mintCooling cc t pause = true

variable {w cc t pause}

theorem gateOutcome_walletDrop :
    w.gateOutcome cc t pause = .walletDrop ↔ w.walletCooling cc t = true := by
  rw [gateOutcome]
  split_ifs with wallet mint
  · exact iff_of_true rfl wallet
  · exact iff_of_false nofun wallet
  · exact iff_of_false nofun wallet

theorem gateOutcome_mintDrop :
    w.gateOutcome cc t pause = .mintDrop ↔ w.StoppedAtMint cc t pause := by
  rw [gateOutcome, StoppedAtMint]
  cases w.walletCooling cc t <;> cases w.mintCooling cc t pause <;> simp

theorem gateFrame_of_stopped (stopped : w.StoppedAtMint cc t pause) :
    (w.gateFrame cc t pause).1 = { w with
      recentWallet := Function.update w.recentWallet t.trader (some w.clock)
      clock := w.clock + pause } := by
  rw [gateFrame_eq, gateOutcome_mintDrop.mpr stopped]

theorem gateOutcome_congr {w' : World} (clock : w'.clock = w.clock)
    (wallet : w'.walletCooling cc t = w.walletCooling cc t) (recent : w'.recent = w.recent) :
    w'.gateOutcome cc t pause = w.gateOutcome cc t pause := by
  rw [gateOutcome, gateOutcome, wallet, mintCooling, mintCooling, clock, recent]

end World

theorem copyMode_gates {cfg : Market.Config} {dryRun : Bool} {w w' : World} {e : Env}
    {ts : List (TaskProc CopyLocals)} (h : (copyMode cfg dryRun).env w e = some (w', ts)) :
    (∃ t pause, e = .frame t pause ∧ PumpBuy t ∧
      w' = { (w.gateFrame cfg.copyTrade t pause).1 with
        spawned := w.spawned + ts.length } ∧
      (ts.length = 1 ↔ w.gateOutcome cfg.copyTrade t pause = .copied)) ∨
    (ts = [] ∧ w.clock ≤ w'.clock ∧ w'.recent = w.recent ∧ w'.recentWallet = w.recentWallet) := by
  cases e with
  | frame t pause =>
      simp only [copyMode] at h
      split at h
      · cases h
      · split_ifs at h with sell buy pumpswap
        · cases h
          exact .inr ⟨rfl, le_refl _, rfl, rfl⟩
        · cases h
          exact .inr ⟨rfl, le_refl _, rfl, rfl⟩
        · cases h
          exact .inr ⟨rfl, le_refl _, rfl, rfl⟩
        · refine .inl ⟨t, pause, rfl, ⟨not_not.mp buy, by simpa using pumpswap⟩, ?_⟩
          rw [World.gateFrame_eq] at h ⊢
          cases outcome : w.gateOutcome cfg.copyTrade t pause <;>
            rw [outcome] at h <;> cases h <;> simp
      · cases h
  | _ =>
      cases copyMode_moves h with
      | background alive moved =>
          rcases World.background_cases moved with ⟨d, _, rfl⟩ | ⟨j, x, f, _, _, rfl⟩
          · exact .inr ⟨rfl, Nat.le_add_right _ _, rfl, rfl⟩
          · exact .inr ⟨rfl, le_refl _, rfl, rfl⟩
      | _ => exact .inr ⟨rfl, le_refl _, rfl, rfl⟩

/-! ### The gates over later frames -/

/-- A frame that comes a while after the one before, and the pause between its two gates. -/
structure TimedFrame where
  gap : Duration
  trade : AlphaTrade
  pause : Duration

section Decisions

variable {cc : CopyTradeConfig} {w w' : World}

/-- What the gates decide on a sequence of buy frames. -/
def decisions (cc : CopyTradeConfig) : World → List TimedFrame → List GateOutcome
  | _, [] => []
  | w, f :: later =>
      let w := { w with clock := w.clock + f.gap }
      w.gateOutcome cc f.trade f.pause :: decisions cc (w.gateFrame cc f.trade f.pause).1 later

/-- The per-wallet gate judges two maps alike from now on, and the rest of the gates agrees. -/
structure JudgedAlike (cc : CopyTradeConfig) (w w' : World) : Prop where
  clock : w'.clock = w.clock
  recent : w'.recent = w.recent
  wallets : ∀ trader later, w.clock ≤ later →
    coolingDown (w'.recentWallet trader) later (fromSecs cc.perWalletCooldownSecs) =
      coolingDown (w.recentWallet trader) later (fromSecs cc.perWalletCooldownSecs)

theorem JudgedAlike.outcome (alike : JudgedAlike cc w w') (t : AlphaTrade) (pause : Duration) :
    w'.gateOutcome cc t pause = w.gateOutcome cc t pause := by
  refine World.gateOutcome_congr alike.clock ?_ alike.recent
  rw [World.walletCooling, World.walletCooling, alike.clock]
  exact alike.wallets t.trader w.clock (le_refl _)

theorem JudgedAlike.advance (alike : JudgedAlike cc w w') (gap : Duration) :
    JudgedAlike cc { w with clock := w.clock + gap } { w' with clock := w'.clock + gap } where
  clock := by rw [alike.clock]
  recent := alike.recent
  wallets trader later le := alike.wallets trader later ((Nat.le_add_right _ _).trans le)

theorem JudgedAlike.gateFrame (alike : JudgedAlike cc w w') (t : AlphaTrade) (pause : Duration) :
    JudgedAlike cc (w.gateFrame cc t pause).1 (w'.gateFrame cc t pause).1 := by
  have noted (trader : String) (later : Instant) (le : w.clock + pause ≤ later) :
      coolingDown (Function.update w'.recentWallet t.trader (some w'.clock) trader) later
          (fromSecs cc.perWalletCooldownSecs) =
        coolingDown (Function.update w.recentWallet t.trader (some w.clock) trader) later
          (fromSecs cc.perWalletCooldownSecs) := by
    rcases eq_or_ne trader t.trader with rfl | other
    · rw [Function.update_self, Function.update_self, alike.clock]
    · rw [Function.update_of_ne other, Function.update_of_ne other]
      exact alike.wallets trader later ((Nat.le_add_right _ _).trans le)
  rw [World.gateFrame_eq, World.gateFrame_eq, alike.outcome]
  cases w.gateOutcome cc t pause with
  | walletDrop => exact alike
  | mintDrop =>
      constructor
      case clock => simp only [alike.clock]
      case recent => exact alike.recent
      case wallets => exact noted
  | copied =>
      constructor
      case clock => simp only [alike.clock]
      case recent => simp only [alike.recent, alike.clock]
      case wallets => exact noted

theorem JudgedAlike.decisions (alike : JudgedAlike cc w w') (later : List TimedFrame) :
    decisions cc w' later = decisions cc w later := by
  induction later generalizing w w' with
  | nil => rfl
  | cons f later ih =>
      have advanced := alike.advance f.gap
      have noted := advanced.gateFrame f.trade f.pause
      rw [Tasks.decisions, Tasks.decisions, advanced.outcome, ih noted]

end Decisions

section Runs

variable (cfg : Market.Config) (dryRun : Bool)

/-- The config text for a buy frame that reaches the gates at `w`, after the trace `tr`: each gate
stops it for a copied buy only, and a frame that is stopped changes no later decision. -/
structure ArmedByCopies (tr : CopyTrace) (w : World) (t : AlphaTrade) (pause : Duration) :
    Prop where
  wallet : w.gateOutcome cfg.copyTrade t pause = .walletDrop ↔
    ∃ copied, Copied cfg dryRun tr t.trader copied ∧
      w.clock < copied + fromSecs cfg.copyTrade.perWalletCooldownSecs
  mint : w.gateOutcome cfg.copyTrade t pause ≠ .walletDrop →
    (w.gateOutcome cfg.copyTrade t pause = .mintDrop ↔
      ∃ passed, LetThrough cfg dryRun tr t.mint passed ∧
        w.clock + pause < passed + fromSecs cfg.copyTrade.reentryCooldownSecs)
  neutral : w.gateOutcome cfg.copyTrade t pause ≠ .copied → ∀ later,
    decisions cfg.copyTrade (w.gateFrame cfg.copyTrade t pause).1 later =
      decisions cfg.copyTrade
        { w with clock := (w.gateFrame cfg.copyTrade t pause).1.clock } later

variable {cfg dryRun} {start : Instant} {tr : CopyTrace} {c : CopyConfig}

theorem Copied.append {trader : String} {at' : Instant} (h : Copied cfg dryRun tr trader at')
    (x : World × CopyLabel) : Copied cfg dryRun (tr ++ [x]) trader at' := by
  obtain ⟨w, w', t, pause, session, mem, rest⟩ := h
  exact ⟨w, w', t, pause, session, List.mem_append_left _ mem, rest⟩

theorem LetThrough.append {m : String} {passed : Instant} (h : LetThrough cfg dryRun tr m passed)
    (x : World × CopyLabel) : LetThrough cfg dryRun (tr ++ [x]) m passed := by
  obtain ⟨w, w', t, pause, session, mem, rest⟩ := h
  exact ⟨w, w', t, pause, session, List.mem_append_left _ mem, rest⟩

variable (cfg dryRun) in
/-- Where a time in the map of the per-wallet gate comes from. -/
def WalletOrigin (tr : CopyTrace) (now : Instant) (trader : String) (last : Instant) : Prop :=
  Copied cfg dryRun tr trader last ∨
    ∃ v t pause, (v, .env (.frame t pause)) ∈ tr ∧ PumpBuy t ∧ v.clock = last ∧
      v.StoppedAtMint cfg.copyTrade t pause ∧ last + pause ≤ now

theorem WalletOrigin.append {now later : Instant} {trader : String} {last : Instant}
    (h : WalletOrigin cfg dryRun tr now trader last) (le : now ≤ later)
    (x : World × CopyLabel) : WalletOrigin cfg dryRun (tr ++ [x]) later trader last := by
  rcases h with copied | ⟨v, t, pause, mem, buy, clock, stopped, elapsed⟩
  · exact .inl (copied.append x)
  · exact .inr ⟨v, t, pause, List.mem_append_left _ mem, buy, clock, stopped, elapsed.trans le⟩

variable (cfg dryRun) in
/-- The times in the two maps have such an origin. -/
structure MapsKept (tr : CopyTrace) (w : World) : Prop where
  wallet : ∀ trader last, w.recentWallet trader = some last →
    WalletOrigin cfg dryRun tr w.clock trader last
  mint : ∀ m last, w.recent m = some last → LetThrough cfg dryRun tr m last

theorem MapsKept.next {w w' : World} {x : World × CopyLabel} (kept : MapsKept cfg dryRun tr w)
    (later : w.clock ≤ w'.clock)
    (wallets : ∀ trader last, w'.recentWallet trader = some last →
      w.recentWallet trader = some last ∨
        WalletOrigin cfg dryRun (tr ++ [x]) w'.clock trader last)
    (mints : ∀ m last, w'.recent m = some last → w.recent m = some last ∨
      LetThrough cfg dryRun (tr ++ [x]) m last) : MapsKept cfg dryRun (tr ++ [x]) w' := by
  constructor
  · intro trader last here
    rcases wallets trader last here with old | new
    · exact (kept.wallet trader last old).append later x
    · exact new
  · intro m last here
    rcases mints m last here with old | new
    · exact (kept.mint m last old).append x
    · exact new

theorem MapsKept.other {w w' : World} (kept : MapsKept cfg dryRun tr w) (x : World × CopyLabel)
    (later : w.clock ≤ w'.clock) (recent : w'.recent = w.recent)
    (wallets : w'.recentWallet = w.recentWallet) : MapsKept cfg dryRun (tr ++ [x]) w' := by
  refine kept.next later ?_ ?_
  · intro trader last here
    exact .inl (wallets ▸ here)
  · intro m last here
    exact .inl (recent ▸ here)

theorem update_some {m : String → Option Instant} {k k' : String} {at' last : Instant}
    (h : Function.update m k (some at') k' = some last) :
    m k' = some last ∨ (k = k' ∧ at' = last) := by
  rcases eq_or_ne k' k with rfl | other
  · rw [Function.update_self] at h
    exact .inr ⟨rfl, Option.some.inj h⟩
  · rw [Function.update_of_ne other] at h
    exact .inl h

theorem maps_kept (run : CopyRun cfg dryRun start always tr c) :
    MapsKept cfg dryRun tr c.shared := by
  apply run.invariant (fun tr c => MapsKept cfg dryRun tr c.shared)
  · constructor
    · intro trader last here
      cases here
    · intro m last here
      cases here
  intro tr c e c' _ kept _ moved
  have later := copy_step_clock moved
  cases moved with
  | perform pending granted =>
      obtain ⟨_, _, _, _, _, rfl⟩ := World.perform_rest (copyMode_exec granted)
      exact kept.other _ later rfl rfl
  | unroll pending => exact kept.other _ later rfl rfl
  | @env e w' ts granted =>
      rcases copyMode_gates granted with ⟨t, pause, rfl, buy, rfl, single⟩ | ⟨_, _, recent, wallets⟩
      · rw [World.gateFrame_eq] at granted later ⊢
        cases outcome : c.shared.gateOutcome cfg.copyTrade t pause with
        | walletDrop =>
            rw [outcome] at later
            exact kept.other _ later rfl rfl
        | mintDrop =>
            have stopped := World.gateOutcome_mintDrop.mp outcome
            rw [outcome] at later
            refine kept.next later ?_ ?_
            · intro trader last here
              rcases update_some here with old | ⟨rfl, rfl⟩
              · exact .inl old
              · refine .inr (.inr ⟨c.shared, t, pause, ?_, buy, rfl, stopped, le_refl _⟩)
                exact List.mem_append_right _ (List.mem_singleton.mpr rfl)
            · intro m last here
              exact .inl here
        | copied =>
            obtain ⟨session, rfl⟩ := List.length_eq_one_iff.mp (single.mpr outcome)
            rw [outcome] at granted later
            have new : (c.shared, .env (.frame t pause)) ∈
                tr ++ [(c.shared, (.env (.frame t pause) : CopyLabel))] :=
              List.mem_append_right _ (List.mem_singleton.mpr rfl)
            refine kept.next later ?_ ?_
            · intro trader last here
              rcases update_some here with old | ⟨rfl, rfl⟩
              · exact .inl old
              · exact .inr (.inl ⟨_, _, t, pause, session, new, rfl, granted, rfl⟩)
            · intro m last here
              rcases update_some here with old | ⟨rfl, rfl⟩
              · exact .inl old
              · exact .inr ⟨_, _, t, pause, session, new, rfl, granted, rfl⟩
      · exact kept.other _ later recent wallets

/-- No buy frame was stopped at the per-mint gate while the cooldown it had armed at the per-wallet
gate was still on. -/
def NeverHalfPassed (cc : CopyTradeConfig) (tr : CopyTrace) : Prop :=
  ∀ w t pause, (w, .env (.frame t pause)) ∈ tr → PumpBuy t → w.StoppedAtMint cc t pause →
    fromSecs cc.perWalletCooldownSecs ≤ pause

theorem mint_gate_iff (run : CopyRun cfg dryRun start always tr c) (t : AlphaTrade)
    (pause : Duration) : c.shared.mintCooling cfg.copyTrade t pause = true ↔
      ∃ passed, LetThrough cfg dryRun tr t.mint passed ∧
        c.shared.clock + pause < passed + fromSecs cfg.copyTrade.reentryCooldownSecs := by
  have kept := gate_kept run
  rw [World.mintCooling, coolingDown_iff fun last here =>
    (kept.past t.mint last here).trans (Nat.le_add_right _ _)]
  constructor
  · rintro ⟨last, here, hot⟩
    exact ⟨last, (maps_kept run).mint t.mint last here, hot⟩
  · rintro ⟨passed, before, hot⟩
    obtain ⟨last, here, le⟩ := kept.latest t.mint passed before
    exact ⟨last, here, hot.trans_le (Nat.add_le_add_right le _)⟩

theorem wallet_gate_iff (run : CopyRun cfg dryRun start always tr c)
    (whole : NeverHalfPassed cfg.copyTrade tr) (t : AlphaTrade) :
    c.shared.walletCooling cfg.copyTrade t = true ↔
      ∃ copied, Copied cfg dryRun tr t.trader copied ∧
        c.shared.clock < copied + fromSecs cfg.copyTrade.perWalletCooldownSecs := by
  have kept := wallets_kept run
  rw [World.walletCooling, coolingDown_iff (kept.past t.trader)]
  constructor
  · rintro ⟨last, here, hot⟩
    rcases (maps_kept run).wallet t.trader last here with
      copied | ⟨v, t', pause, mem, buy, clock, stopped, elapsed⟩
    · exact ⟨last, copied, hot⟩
    · -- the entry of a stopped frame has cooled down before the frame is through
      have over' := whole v t' pause mem buy stopped
      exact absurd hot (not_lt.mpr ((Nat.add_le_add_left over' last).trans elapsed))
  · rintro ⟨copied, before, hot⟩
    obtain ⟨last, here, le⟩ := kept.latest t.trader copied before
    exact ⟨last, here, hot.trans_le (Nat.add_le_add_right le _)⟩

/-- A frame that outlasts the cooldown it arms leaves the gates as they would be without it. -/
theorem stopped_alike {cc : CopyTradeConfig} {w : World} {t : AlphaTrade} {pause : Duration}
    (stopped : w.gateOutcome cc t pause ≠ .copied)
    (whole : w.StoppedAtMint cc t pause → fromSecs cc.perWalletCooldownSecs ≤ pause) :
    JudgedAlike cc { w with clock := (w.gateFrame cc t pause).1.clock }
      (w.gateFrame cc t pause).1 := by
  cases outcome : w.gateOutcome cc t pause with
  | copied => exact absurd outcome stopped
  | walletDrop =>
      rw [World.gateFrame_eq, outcome]
      constructor
      case clock => rfl
      case recent => rfl
      case wallets => exact fun _ _ _ => rfl
  | mintDrop =>
      have halted := World.gateOutcome_mintDrop.mp outcome
      have cooled : coolingDown (w.recentWallet t.trader) w.clock
        (fromSecs cc.perWalletCooldownSecs) = false := halted.1
      rw [World.gateFrame_of_stopped halted]
      constructor
      case clock => rfl
      case recent => rfl
      case wallets =>
        intro trader later (le : w.clock + pause ≤ later)
        show coolingDown (Function.update w.recentWallet t.trader (some w.clock) trader) later _ =
          coolingDown (w.recentWallet trader) later _
        rcases eq_or_ne trader t.trader with rfl | other
        · have begun : w.clock ≤ later := (Nat.le_add_right _ _).trans le
          have fresh : w.clock + fromSecs cc.perWalletCooldownSecs ≤ later :=
            (Nat.add_le_add_left (whole halted) _).trans le
          rw [Function.update_self, coolingDown_later cooled begun, coolingDown, Option.any_some,
            decide_eq_false_iff_not, not_lt]
          exact Nat.le_sub_of_add_le' fresh
        · rw [Function.update_of_ne other]

theorem half_passed_not_neutral {cc : CopyTradeConfig} {w : World} {t : AlphaTrade}
    {pause : Duration} (stopped : w.StoppedAtMint cc t pause)
    (armed : pause < fromSecs cc.perWalletCooldownSecs) :
    decisions cc (w.gateFrame cc t pause).1 [⟨0, t, 0⟩] ≠
      decisions cc { w with clock := (w.gateFrame cc t pause).1.clock } [⟨0, t, 0⟩] := by
  rw [World.gateFrame_of_stopped stopped]
  intro same
  have head := (List.cons.inj same).1
  have hot : { w with
      recentWallet := Function.update w.recentWallet t.trader (some w.clock)
      clock := w.clock + pause + 0 }.walletCooling cc t = true := by
    show coolingDown (Function.update w.recentWallet t.trader (some w.clock) t.trader)
      (w.clock + pause) _ = true
    have elapsed : durationSince (w.clock + pause) w.clock = pause :=
      Nat.add_sub_cancel_left _ _
    rw [Function.update_self, coolingDown, Option.any_some, decide_eq_true_eq, elapsed]
    exact armed
  have cooled : { w with clock := w.clock + pause + 0 }.walletCooling cc t = false :=
    coolingDown_later stopped.1 (Nat.le_add_right _ _)
  rw [World.gateOutcome_walletDrop.mpr hot] at head
  rw [World.gateOutcome_walletDrop.mp head.symm] at cooled
  cases cooled

end Runs

/-- In a run the two cooldowns are armed by copied buys only exactly when no buy frame is stopped at
the per-mint gate within the cooldown that it has just armed at the per-wallet gate. -/
theorem armed_by_copies_iff (cfg : Market.Config) (dryRun : Bool) (start : Instant) (tr : CopyTrace)
    (c : CopyConfig) (run : CopyRun cfg dryRun start always tr c) :
    (∀ pre w t pause post, tr = pre ++ (w, .env (.frame t pause)) :: post → PumpBuy t →
      ArmedByCopies cfg dryRun pre w t pause) ↔ NeverHalfPassed cfg.copyTrade tr := by
  constructor
  · intro honest w t pause mem buy stopped
    obtain ⟨pre, post, split⟩ := List.append_of_mem mem
    have neutral := (honest pre w t pause post split buy).neutral
    rw [World.gateOutcome_mintDrop.mpr stopped] at neutral
    by_contra short
    exact half_passed_not_neutral stopped (not_le.mp short) (neutral nofun [⟨0, t, 0⟩])
  · intro whole pre w t pause post split buy
    obtain ⟨c', _, before, rfl, _⟩ := run.upto pre w _ post split
    have earlier : NeverHalfPassed cfg.copyTrade pre := by
      intro v t' pause' mem
      exact whole v t' pause' (split ▸ List.mem_append_left _ mem)
    have here : (c'.shared, .env (.frame t pause)) ∈ tr := by
      rw [split]
      exact List.mem_append_right _ List.mem_cons_self
    constructor
    case wallet => exact World.gateOutcome_walletDrop.trans (wallet_gate_iff before earlier t)
    case mint =>
      intro passed
      rw [World.gateOutcome_mintDrop, ← mint_gate_iff before t pause, World.StoppedAtMint]
      have cooled : c'.shared.walletCooling cfg.copyTrade t = false := by
        rw [← Bool.not_eq_true, ← World.gateOutcome_walletDrop]
        exact passed
      exact and_iff_right cooled
    case neutral =>
      intro stopped later
      exact (stopped_alike stopped (whole c'.shared t pause here buy)).decisions later

theorem armed_by_copies_eager : ∃ (tr : CopyTrace) (c : CopyConfig),
    (c.tasks.map Proc.finished) = [false] ∧
    ((∀ pre w t pause post, tr = pre ++ (w, .env (.frame t pause)) :: post → PumpBuy t →
      ArmedByCopies eager false pre w t pause) ↔ NeverHalfPassed eager.copyTrade tr) := by
  obtain ⟨tr, c, run, reached⟩ := System.script_reaches (copyMode eager false) (copyStart eager 0)
    [.env (.frame (alphaTrade someMint "A" "buy") 0),
      .env (.frame (alphaTrade someMint "B" "buy") 0)]
    (fun _ c => (c.tasks.map Proc.finished) = [false]) (by decide +kernel)
  exact ⟨tr, c, of_decide_eq_true reached, armed_by_copies_iff eager false 0 tr c run⟩

/-- A step that copies a buy of a wallet. -/
def copies (cfg : Market.Config) (dryRun : Bool) (trader : String) :
    World × CopyLabel → Bool
  | (w, .env (.frame t pause)) => t.trader = trader &&
      ((copyMode cfg dryRun).env w (.frame t pause)).any fun x => x.2.length = 1
  | _ => false

theorem Copied.copies {cfg : Market.Config} {dryRun : Bool} {tr : CopyTrace} {trader : String}
    {at' : Instant} (h : Copied cfg dryRun tr trader at') :
    tr.any (copies cfg dryRun trader) = true := by
  obtain ⟨w, w', t, pause, session, mem, same, granted, _⟩ := h
  refine List.any_eq_true.mpr ⟨_, mem, ?_⟩
  simp [Tasks.copies, same, granted]

/-- Wallet B buys a mint that was just copied from wallet A, and then another one: the second buy is
dropped at the per-wallet gate, though no buy of B was ever copied. -/
theorem uncopied_wallet_dropped : ¬ ∀ (cfg : Market.Config) (dryRun : Bool) (start : Instant)
    (tr : CopyTrace) (c : CopyConfig), CopyRun cfg dryRun start always tr c →
      ∀ pre w t pause post, tr = pre ++ (w, .env (.frame t pause)) :: post → PumpBuy t →
        ArmedByCopies cfg dryRun pre w t pause := by
  intro claimed
  obtain ⟨tr, c, run, reached⟩ := System.script_reaches (copyMode eager false) (copyStart eager 0)
    [.env (.frame (alphaTrade someMint "A" "buy") 0),
      .env (.advance (fromSecs 1)),
      .env (.frame (alphaTrade someMint "B" "buy") 0),
      .env (.advance (fromSecs 1))]
    (fun tr c => tr.any (copies eager false "B") = false ∧
      c.shared.gateOutcome eager.copyTrade (alphaTrade splTokenId "B" "buy") 0 = .walletDrop ∧
      ((copyMode eager false).env c.shared
        (.frame (alphaTrade splTokenId "B" "buy") 0)).isSome) (by decide +kernel)
  obtain ⟨uncopied, dropped, next⟩ := of_decide_eq_true reached
  obtain ⟨⟨w', ts⟩, granted⟩ := Option.isSome_iff_exists.mp next
  have armed := claimed eager false 0 _ _ (run.step trivial (.env granted)) tr c.shared
    (alphaTrade splTokenId "B" "buy") 0 [] rfl ⟨rfl, rfl⟩
  obtain ⟨copied, before, _⟩ := armed.wallet.mp dropped
  have found : tr.any (copies eager false "B") = true := before.copies
  rw [uncopied] at found
  cases found

end HadesPsTrader.Tasks
