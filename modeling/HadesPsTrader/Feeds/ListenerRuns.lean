/- Module: HadesPsTrader/Feeds/ListenerRuns
   source: src/pumpportal.rs
   digest: What a websocket listener passes on and answers, over all its connections. -/

import HadesPsTrader.Feeds.Socket
import HadesPsTrader.Interaction.History

set_option autoImplicit false
set_option relaxedAutoImplicit false

namespace HadesPsTrader.Feeds

open HadesPsTrader.Interaction
open Tasks (Value MigrationEvent AlphaTrade migration accountTrade)

variable {α : Type}

/-- What a listener did, with the answers, in order. -/
abbrev Heard (α : Type) := List (Sigma (ListenReply (α := α)))

section Record

variable (fromStr : String → Option Value) (sub : Subscription α)

def events (h : Heard α) : List α :=
  h.filterMap fun x => match x with
    | ⟨.read, some (.ok (.text text))⟩ => eventOf fromStr sub text
    | _ => none

def sent (h : Heard α) : List α :=
  h.filterMap fun x => match x with
    | ⟨.send a, _⟩ => some a
    | _ => none

/-- The payloads of the pings received, and of the pongs written. -/
def pings (h : Heard α) : List (List Nat) :=
  h.filterMap fun x => match x with
    | ⟨.read, some (.ok (.ping payload))⟩ => some payload
    | _ => none

def pongs (h : Heard α) : List (List Nat) :=
  h.filterMap fun x => match x with
    | ⟨.write (.pong payload), _⟩ => some payload
    | _ => none

def pauses (h : Heard α) : List Nat :=
  h.filterMap fun x => match x with
    | ⟨.sleep secs, _⟩ => some secs
    | _ => none

/-- Where a connection stands. -/
inductive Phase
  | away | connected | subscribed | ended
  deriving DecidableEq

/-- An operation that failed, or that ended the stream, ends the connection. -/
def Phase.after (p : Phase) : Sigma (ListenReply (α := α)) → Phase
  | ⟨.connect, .ok ()⟩ => .connected
  | ⟨.connect, .error _⟩ => .ended
  | ⟨.write (.text _), .ok ()⟩ => .subscribed
  | ⟨.write (.pong _), .ok ()⟩ => p
  | ⟨.write _, .error _⟩ => .ended
  | ⟨.read, none⟩ => .ended
  | ⟨.read, some (.error _)⟩ => .ended
  | ⟨.read, some (.ok .close)⟩ => .ended
  | ⟨.read, some (.ok _)⟩ => p
  | ⟨.send _, received⟩ => if sub.leaves && !received then .ended else p
  | ⟨.sleep _, ()⟩ => .away

def phase (h : Heard α) : Phase := h.foldl (Phase.after sub) .away

/-- The pause after `n` connections: 1, 2, 4, 8, 16 and then 30 seconds. -/
def backoffAfter (n : Nat) : Nat := min (2 ^ n) 30

/-- Every event heard has been sent on, and every ping answered, up to the one in hand. -/
structure PassesOn (h : Heard α) (o : ListenOp α) : Prop where
  sending : ∀ a, o = .send a → events fromStr sub h = sent h ++ [a]
  idle : (∀ a, o ≠ .send a) → events fromStr sub h = sent h
  answering : ∀ payload, o = .write (.pong payload) → pings h = pongs h ++ [payload]
  answered : (∀ payload, o ≠ .write (.pong payload)) → pings h = pongs h

/-- The order of a connection: the handshake, the request, messages and what they call for, and a
pause once it is over. -/
structure Ordered (h : Heard α) (o : ListenOp α) : Prop where
  away : phase sub h = .away ↔ o = .connect
  connected : phase sub h = .connected ↔ o = .write (.text sub.request)
  subscribed : phase sub h = .subscribed ↔
    o = .read ∨ (∃ a, o = .send a) ∨ ∃ payload, o = .write (.pong payload)
  ended : phase sub h = .ended ↔ o = .sleep (backoffAfter (pauses h).length)

end Record

section Steps

variable {fromStr : String → Option Value} {sub : Subscription α} {h : Heard α}

@[simp] theorem phase_append (x : Sigma (ListenReply (α := α))) :
    phase sub (h ++ [x]) = (phase sub h).after sub x := by
  rw [phase, List.foldl_append]
  rfl

structure CaughtUp (fromStr : String → Option Value) (sub : Subscription α) (h : Heard α) :
    Prop where
  sent : events fromStr sub h = sent h
  answered : pings h = pongs h

theorem CaughtUp.append {h' : Heard α} (caught : CaughtUp fromStr sub h)
    (more : CaughtUp fromStr sub h') : CaughtUp fromStr sub (h ++ h') := by
  refine ⟨?_, ?_⟩
  · rw [events, List.filterMap_append, Feeds.sent, List.filterMap_append]
    exact congrArg₂ _ caught.sent more.sent
  · rw [pings, List.filterMap_append, pongs, List.filterMap_append]
    exact congrArg₂ _ caught.answered more.answered

theorem CaughtUp.passesOn (caught : CaughtUp fromStr sub h) {o : ListenOp α}
    (no_event : ∀ a, o ≠ .send a) (no_pong : ∀ payload, o ≠ .write (.pong payload)) :
    PassesOn fromStr sub h o where
  sending a same := absurd same (no_event a)
  idle _ := caught.sent
  answering payload same := absurd same (no_pong payload)
  answered _ := caught.answered

variable (fromStr sub) in
/-- What a listener answers for. -/
def listening : Protocol (Heard α) Unit ListenLocals (ListenOp α) ListenReply :=
  recording Unit (fun _ _ => True) fun h _ o => PassesOn fromStr sub h o ∧ Ordered sub h o

structure Standing (fromStr : String → Option Value) (sub : Subscription α) (paused : List Nat)
    (p : Phase) (h : Heard α) : Prop where
  caught : CaughtUp fromStr sub h
  phase : phase sub h = p
  pauses : pauses h = paused

variable {paused : List Nat} {p : Phase} {l : ListenLocals}

theorem Standing.append {p' : Phase} (standing : Standing fromStr sub paused p h)
    {h' : Heard α} (caught : CaughtUp fromStr sub h') (unpaused : Feeds.pauses h' = [])
    (moved : h'.foldl (Phase.after sub) p = p') : Standing fromStr sub paused p' (h ++ h') := by
  refine ⟨standing.caught.append caught, ?_, ?_⟩
  · rw [Feeds.phase, List.foldl_append, ← Feeds.phase, standing.phase, moved]
  · rw [Feeds.pauses, List.filterMap_append, ← Feeds.pauses, ← Feeds.pauses, unpaused,
      List.append_nil, standing.pauses]

def afterRound (x : Option (Except String Unit)) : Phase := if x.isNone then .subscribed else .ended

theorem onMessage_listens {m : Message} (reading : Standing fromStr sub paused .subscribed h) :
    Async.wp (listening fromStr sub) (onMessage fromStr sub m)
      (fun h' l' x => l' = l ∧ Standing fromStr sub paused (afterRound x) h')
      (h ++ [⟨.read, some (.ok m)⟩]) l := by
  have ⟨⟨sent_eq, pongs_eq⟩, phase_eq, _⟩ := reading
  cases m with
  | text text =>
      rw [onMessage]
      cases event : eventOf fromStr sub text with
      | none => exact ⟨rfl, reading.append ⟨by simp [events, sent, event], rfl⟩ rfl rfl⟩
      | some a =>
          apply Async.wp_record trivial
          · refine ⟨⟨?_, ?_, ?_, ?_⟩, ?_, ?_, ?_, ?_⟩
            · intro b same
              cases same
              simpa [events, sent, event] using sent_eq
            · exact fun other => absurd rfl (other a)
            · intro payload same
              cases same
            · intro _
              simpa [pings, pongs] using pongs_eq
            all_goals simp [phase_append, phase_eq, Phase.after]
          · intro received
            rw [List.append_assoc]
            have passed : CaughtUp fromStr sub
                [⟨.read, some (.ok (.text text))⟩, ⟨.send a, received⟩] :=
              ⟨by simp [events, sent, event], rfl⟩
            have after : List.foldl (Phase.after sub) .subscribed
                [⟨.read, some (.ok (.text text))⟩, ⟨.send a, received⟩] =
                  if sub.leaves && !received then .ended else .subscribed := rfl
            split_ifs with leaves
            · rw [if_pos leaves] at after
              exact ⟨rfl, reading.append passed rfl after⟩
            · rw [if_neg leaves] at after
              exact ⟨rfl, reading.append passed rfl after⟩
  | ping payload =>
      rw [onMessage]
      apply Async.wp_record trivial
      · refine ⟨⟨?_, ?_, ?_, ?_⟩, ?_, ?_, ?_, ?_⟩
        · intro a same
          cases same
        · intro _
          simpa [events, sent] using sent_eq
        · intro payload' same
          cases same
          simpa [pings, pongs] using pongs_eq
        · exact fun other => absurd rfl (other payload)
        all_goals simp [phase_append, phase_eq, Phase.after]
      · intro written
        rw [List.append_assoc]
        cases written with
        | error e => exact ⟨rfl, reading.append ⟨rfl, rfl⟩ rfl rfl⟩
        | ok done => exact ⟨rfl, reading.append ⟨rfl, rfl⟩ rfl rfl⟩
  | close => exact ⟨rfl, reading.append ⟨rfl, rfl⟩ rfl rfl⟩
  | other => exact ⟨rfl, reading.append ⟨rfl, rfl⟩ rfl rfl⟩

theorem readRound_listens (reading : Standing fromStr sub paused .subscribed h) :
    Async.wp (listening fromStr sub) (readRound fromStr sub)
      (fun h' l' x => l' = l ∧ Standing fromStr sub paused (afterRound x) h') h l := by
  rw [readRound]
  apply Async.wp_record trivial
  · refine ⟨reading.caught.passesOn (fun _ => nofun) fun _ => nofun, ?_, ?_, ?_, ?_⟩
    all_goals simp [reading.phase]
  intro msg
  match msg with
  | none => exact ⟨rfl, reading.append ⟨rfl, rfl⟩ rfl rfl⟩
  | some (.error e) => exact ⟨rfl, reading.append ⟨rfl, rfl⟩ rfl rfl⟩
  | some (.ok m) => exact onMessage_listens reading

theorem runFeed_listens (away : Standing fromStr sub paused .away h) :
    Async.wp (listening fromStr sub) (runFeed fromStr sub)
      (fun h' l' _ => l' = l ∧ Standing fromStr sub paused .ended h') h l := by
  rw [runFeed]
  apply Async.wp_record trivial
  · refine ⟨away.caught.passesOn (fun _ => nofun) fun _ => nofun, ?_, ?_, ?_, ?_⟩
    all_goals simp [away.phase]
  intro shaken
  match shaken with
  | .error e => exact ⟨rfl, away.append ⟨rfl, rfl⟩ rfl rfl⟩
  | .ok () =>
      have up : Standing fromStr sub paused .connected (h ++ [⟨.connect, .ok ()⟩]) :=
        away.append ⟨rfl, rfl⟩ rfl rfl
      apply Async.wp_record trivial
      · refine ⟨up.caught.passesOn (fun _ => nofun) fun _ => nofun, ?_, ?_, ?_, ?_⟩
        all_goals simp [up.phase]
      intro subscribed
      match subscribed with
      | .error e => exact ⟨rfl, up.append ⟨rfl, rfl⟩ rfl rfl⟩
      | .ok () =>
          apply Async.wp_loop fun h' l' => l' = l ∧ Standing fromStr sub paused .subscribed h'
          · exact ⟨rfl, up.append ⟨rfl, rfl⟩ rfl rfl⟩
          · exact fun _ _ _ => trivial
          · rintro h' l' ⟨rfl, reading⟩
            refine Async.wp_mono _ (readRound_listens reading) ?_
            intro h'' l'' x ended
            cases x with
            | none => exact ended
            | some res => exact ended

theorem backoffAfter_succ (n : Nat) :
    min (saturatingMul (backoffAfter n) 2) 30 = backoffAfter (n + 1) := by
  have double : 2 ^ (n + 1) = 2 ^ n * 2 := Nat.pow_succ 2 n
  unfold saturatingMul backoffAfter
  omega

theorem listen_listens (away : Standing fromStr sub paused .away h)
    (backoff : l.backoff = backoffAfter paused.length) :
    Async.wp (listening fromStr sub) (listen fromStr sub) (fun _ _ _ => False) h l := by
  rw [listen]
  apply Async.wp_loop fun h' l' => ∃ paused', Standing fromStr sub paused' .away h' ∧
    l'.backoff = backoffAfter paused'.length
  · exact ⟨paused, away, backoff⟩
  · exact fun _ _ _ => trivial
  rintro h' l' ⟨paused', away', backoff'⟩
  refine Async.wp_bind.mpr (Async.wp_mono _ (runFeed_listens away') ?_)
  rintro h'' l'' _ ⟨rfl, ended⟩
  rw [Async.wp_locals_bind]
  apply Async.wp_record trivial
  · refine ⟨ended.caught.passesOn (fun _ => nofun) fun _ => nofun, ?_, ?_, ?_, ?_⟩
    all_goals simp [ended.phase, ended.pauses, backoff']
  rintro ⟨⟩
  refine ⟨paused' ++ [l''.backoff], ?_, ?_⟩
  · refine ⟨ended.caught.append ⟨rfl, rfl⟩, ?_, ?_⟩
    · rw [phase_append]
      rfl
    · rw [pauses, List.filterMap_append, ← pauses, ended.pauses]
      rfl
  · rw [List.length_append, List.length_singleton, ← backoffAfter_succ, ← backoff']

theorem listen_starts : Async.wp (listening fromStr sub) (listen fromStr sub)
    (fun _ _ _ => False) [] {} := by
  have away : Standing fromStr sub [] .away [] := ⟨⟨rfl, rfl⟩, rfl, rfl⟩
  exact listen_listens away rfl

end Steps

/-- A listener by itself: whatever the network answers, and whether or not the receiver is there. -/
def alone (α : Type) : System Unit ListenLocals (ListenOp α) ListenReply Empty where
  exec _ _ _ _ _ := some ()
  env _ e := nomatch e

section Runs

variable {fromStr : String → Option Value} {sub : Subscription α} {walletKeys : List String}

/-- The runs of a listener's task. -/
abbrev Listens (task : ListenM α Unit) (done : Heard α)
    (c : Config Unit ListenLocals (ListenOp α) ListenReply) : Prop :=
  ∃ tr, Run (alone α) always ⟨(), [task {}]⟩ tr c ∧ history 0 tr = done

def Waits (c : Config Unit ListenLocals (ListenOp α) ListenReply) (o : ListenOp α) : Prop :=
  ∃ l resume, c.tasks[0]? = some (.op l o resume)

def inHand : Proc ListenLocals (ListenOp α) ListenReply Unit → Option α
  | .op _ (.send a) _ => some a
  | _ => none

theorem waits_of_inHand {c : Config Unit ListenLocals (ListenOp α) ListenReply} {a : α}
    (held : c.tasks[0]?.bind inHand = some a) : Waits c (.send a) := by
  obtain ⟨t, here, held⟩ := Option.bind_eq_some_iff.mp held
  unfold inHand at held
  split at held
  · next l b resume =>
      cases held
      exact ⟨l, resume, here⟩
  · cases held

theorem listens {done : Heard α} {c : Config Unit ListenLocals (ListenOp α) ListenReply}
    (run : Listens (listen fromStr sub) done c) {t : Proc _ _ _ Unit}
    (here : c.tasks[0]? = some t) :
    t.wp (listening fromStr sub) (fun _ _ _ => False) done := by
  obtain ⟨tr, run, rfl⟩ := run
  refine run.recorded _ ?_ ?_ 0 t here
  · intro t mem
    cases List.mem_singleton.mp mem
    exact listen_starts
  · exact fun _ e => nomatch e

theorem permitted_of_waits {done : Heard α}
    {c : Config Unit ListenLocals (ListenOp α) ListenReply}
    (run : Listens (listen fromStr sub) done c) {o : ListenOp α} (waits : Waits c o) :
    PassesOn fromStr sub done o ∧ Ordered sub done o := by
  obtain ⟨l, resume, here⟩ := waits
  exact (listens run here).2.1

theorem unfinished_of_listens {done : Heard α}
    {c : Config Unit ListenLocals (ListenOp α) ListenReply}
    (run : Listens (listen fromStr sub) done c) {t : Proc _ _ _ Unit}
    (here : c.tasks[0]? = some t) : t.finished = false := by
  cases finished : t.finished with
  | false => rfl
  | true =>
      obtain ⟨_, impossible⟩ := Proc.returned_of_finished (listens run here) finished
      exact impossible.elim

theorem still_of_no_wallets {done : Heard AlphaTrade}
    {c : Config Unit ListenLocals (ListenOp AlphaTrade) ListenReply}
    (run : Listens (accountTradeListener fromStr []) done c) :
    (∀ o, ¬ Waits c o) ∧ ∀ t, c.tasks[0]? = some t → t.finished = true := by
  obtain ⟨tr, run, rfl⟩ := run
  have still : ∀ (i : Nat) t, c.tasks[i]? = some t → Proc.wp
      (recording Unit (fun _ _ => False) fun _ _ _ => False) t (fun _ _ _ => True)
        (history i tr) := by
    apply run.recorded
    · intro t mem
      cases List.mem_singleton.mp mem
      trivial
    · exact fun _ e => nomatch e
  refine ⟨?_, ?_⟩
  · rintro o ⟨l, resume, here⟩
    exact (still 0 _ here).1
  · intro t here
    cases finished : t.finished with
    | true => rfl
    | false => exact (Proc.coherent_of_running (still 0 t here) finished).elim

/-- Whatever happens to its connections, a listener sends on exactly the events of the text frames
it received, in their order, and answers each ping with a pong of its own. -/
theorem listeners_pass_on (fromStr : String → Option Value) (walletKeys : List String) :
    (∀ done c o, Listens (migrationListener fromStr) done c → Waits c o →
      PassesOn fromStr migrationFeed done o) ∧
    ∀ done c o, Listens (accountTradeListener fromStr walletKeys) done c → Waits c o →
      PassesOn fromStr (accountTradeFeed walletKeys) done o := by
  constructor
  · intro done c o run waits
    exact (permitted_of_waits run waits).1
  · intro done c o run waits
    cases walletKeys with
    | nil => exact absurd waits ((still_of_no_wallets run).1 o)
    | cons key keys => exact (permitted_of_waits run waits).1

/-- A network on which all goes well, and every frame is the same. -/
def steadyNet (α : Type) (text : String) : (o : ListenOp α) → ListenReply o
  | .connect => .ok ()
  | .write _ => .ok ()
  | .read => some (.ok (.text text))
  | .send _ => true
  | .sleep _ => ()

theorem listeners_pass_on_mint :
    let fromStr : String → Option Value := fun text => some (.object [("mint", .string text)])
    ∃ done c, Listens (migrationListener fromStr) done c ∧ Waits c (.send ⟨"mint", none, none⟩) ∧
      events fromStr migrationFeed done = sent done ++ [⟨"mint", none, none⟩] := by
  intro fromStr
  obtain ⟨tr, c, run, seen⟩ := System.script_reaches (alone MigrationEvent)
    ⟨(), [migrationListener fromStr {}]⟩
    (List.replicate 5 (.task 0 fun _ => steadyNet MigrationEvent "mint"))
    (fun _ c => (c.tasks[0]?.bind inHand) = some ⟨"mint", none, none⟩) (by decide)
  have waits : Waits c (.send ⟨"mint", none, none⟩) :=
    waits_of_inHand (of_decide_eq_true seen)
  exact ⟨_, c, ⟨tr, run, rfl⟩, waits,
    ((listeners_pass_on fromStr []).1 _ c _ ⟨tr, run, rfl⟩ waits).sending _ rfl⟩

/-- Each connection starts with its one subscription, reads until it fails, closes or, for the
account trades, finds the receiver gone; the pauses double up to 30 seconds over the whole run. The
listeners never end, except for the account trades of no wallets. -/
theorem listeners_keep_order (fromStr : String → Option Value) (walletKeys : List String) :
    (∀ done c, Listens (migrationListener fromStr) done c →
      (∀ o, Waits c o → Ordered migrationFeed done o) ∧
      ∀ t, c.tasks[0]? = some t → t.finished = false) ∧
    ∀ done c, Listens (accountTradeListener fromStr walletKeys) done c →
      (∀ o, Waits c o → Ordered (accountTradeFeed walletKeys) done o) ∧
      ∀ t, c.tasks[0]? = some t → t.finished = walletKeys.isEmpty := by
  constructor
  · intro done c run
    refine ⟨?_, ?_⟩
    · exact fun o waits => (permitted_of_waits run waits).2
    · exact fun t here => unfinished_of_listens run here
  · intro done c run
    cases walletKeys with
    | nil =>
        obtain ⟨idle, finished⟩ := still_of_no_wallets run
        exact ⟨fun o waits => absurd waits (idle o), finished⟩
    | cons key keys =>
        refine ⟨?_, ?_⟩
        · exact fun o waits => (permitted_of_waits run waits).2
        · exact fun t here => unfinished_of_listens run here

end Runs

end HadesPsTrader.Feeds
