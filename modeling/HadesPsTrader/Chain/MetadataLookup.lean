/- Module: HadesPsTrader/Chain/MetadataLookup
   source: src/onchain.rs
   digest: Metaplex metadata first, the Token-2022 extension second; what both parsers accept. -/

import HadesPsTrader.Chain.Lookups
import HadesPsTrader.Chain.MetadataDecode

set_option autoImplicit false
set_option relaxedAutoImplicit false

namespace HadesPsTrader.Chain

open Interaction

inductive MetaplexError
  | account (e : LookupError)
  | nameParse
  | symbolParse
  deriving DecidableEq

/-- "metaplex: …; token-2022: …" -/
structure MetadataErrors where
  metaplex : MetaplexError
  token2022 : MetadataError
  deriving DecidableEq

/-- key(1) | update_authority(32) | mint(32) -/
def metaplexNameOffset : Nat := 1 + 32 + 32

/-- The lookups of the metadata address, which the program runtime derives from the mint, and those
of the mint. -/
structure MetadataRpc where
  metaplexAccount : Nat → Except String (Option StoredAccount)
  mintAccount : Nat → Except String (Option StoredAccount)

def LookupError.message (key : String) : LookupError → String
  | .getAccount e => "get_account " ++ key ++ ": " ++ e
  | .notVisible => "account " ++ key ++ " not visible after 4 attempts"

def fetchMetaplexMetadata (account : Nat → Except String (Option StoredAccount)) :
    Except (Fault MetaplexError) TokenMetadata := do
  let acc ← mapErr .account (lookup account)
  let (name, offset) ← okOr .nameParse (← readBorshString acc.data metaplexNameOffset)
  let (symbol, _) ← okOr .symbolParse (← readBorshString acc.data offset)
  return ⟨name, symbol⟩

def fetchTokenMetadata (rpc : MetadataRpc) (mint : String) :
    Except (Fault MetadataErrors) TokenMetadata := do
  match ← caught (fetchMetaplexMetadata rpc.metaplexAccount) with
  | .ok m => return m
  | .error metaplexErr =>
    let account := (lookup rpc.mintAccount).mapError (LookupError.message mint)
    match ← caught (fetchToken2022Metadata account) with
    | .ok m => return m
    | .error t22Err => throw (.failed ⟨metaplexErr, t22Err⟩)

section Grammar

/-- Behind `head` bytes stand two strings, each behind its length. -/
def Names (head : Nat) (data : List UInt8) (m : TokenMetadata) : Prop :=
  ∃ front name symbol tail, front.length = head ∧ (utf8Bytes name).length < 2 ^ 32 ∧
    (utf8Bytes symbol).length < 2 ^ 32 ∧
    data = front ++ prefixed 4 (utf8Bytes name) ++ (prefixed 4 (utf8Bytes symbol) ++ tail) ∧
    m = ⟨displayText name, displayText symbol⟩

/-- A mint whose first extension of the metadata type holds an authority, a mint and the names. -/
def ExtensionNames (data : List UInt8) (m : TokenMetadata) : Prop :=
  ∃ base extensions entry rest, base.length = 165 ∧ data = mintData base extensions rest ∧
    extensions.find? (fun e => e.type = extTokenMetadata) = some entry ∧ Names 64 entry.payload m

variable {ε : Type} {data : List UInt8}

theorem readBorshString_eq_some_iff {offset stop : Nat} {text : String} :
    readBorshString data offset = (.ok (some (text, stop)) : Except (Fault ε) _) ↔
      ∃ front s rest, front.length = offset ∧ (utf8Bytes s).length < 2 ^ 32 ∧
        data = front ++ prefixed 4 (utf8Bytes s) ++ rest ∧ text = displayText s ∧
        stop = offset + 4 + (utf8Bytes s).length := by
  constructor
  · intro read
    rw [readBorshString] at read
    split at read
    · cases read
    · next header =>
      have four : ((data.drop offset).take 4).length = 4 := by
        rw [List.length_take, List.length_drop]
        omega
      rw [slice_eq_ok (by omega) (by omega), ok_bind, Nat.add_sub_cancel_left] at read
      dsimp only at read
      generalize same : leValue ((data.drop offset).take 4) = len at read
      have fits : len < 2 ^ 32 := by
        have bound := leValue_lt ((data.drop offset).take 4)
        rw [same, four] at bound
        exact bound
      have size := leBytes_leValue ((data.drop offset).take 4)
      rw [four, same] at size
      split at read
      · cases read
      · next body =>
        rw [slice_eq_ok (by omega) (by omega), ok_bind, Nat.add_sub_cancel_left] at read
        obtain ⟨s, decoded, result⟩ := Option.map_eq_some_iff.mp (Except.ok.inj read)
        cases result
        have bytes := utf8Bytes_of_fromUtf8 decoded
        have length : (utf8Bytes s).length = len := by
          rw [bytes, List.length_take, List.length_drop]
          omega
        refine ⟨data.take offset, s, data.drop (offset + 4 + len), ?_, by omega, ?_, rfl,
          by rw [length]⟩
        · rw [List.length_take]
          omega
        · have behind : (data.drop (offset + 4)).drop len = data.drop (offset + 4 + len) :=
            List.drop_drop
          have body : (data.drop offset).drop 4 = data.drop (offset + 4) := List.drop_drop
          rw [prefixed, length, size, bytes, List.append_assoc, List.append_assoc, ← behind,
            List.take_append_drop, ← body, List.take_append_drop, List.take_append_drop]
  · rintro ⟨front, s, rest, starts, fits, rfl, rfl, rfl⟩
    exact readBorshString_prefixed front rest s starts fits

theorem names_iff {head : Nat} {m : TokenMetadata} : Names head data m ↔
    ∃ offset stop, readBorshString data head =
        (.ok (some (m.name, offset)) : Except (Fault ε) _) ∧
      readBorshString data offset = (.ok (some (m.symbol, stop)) : Except (Fault ε) _) := by
  constructor
  · rintro ⟨front, name, symbol, tail, starts, nameFits, symbolFits, split, rfl⟩
    have named : (front ++ prefixed 4 (utf8Bytes name)).length =
        head + 4 + (utf8Bytes name).length := by
      rw [List.length_append, prefixed, List.length_append, length_leBytes]
      omega
    have first := readBorshString_prefixed (ε := ε) front
      (prefixed 4 (utf8Bytes symbol) ++ tail) name starts nameFits
    have second := readBorshString_prefixed (ε := ε) (front ++ prefixed 4 (utf8Bytes name)) tail
      symbol named symbolFits
    rw [List.append_assoc (front ++ _)] at second
    rw [split]
    exact ⟨_, _, first, second⟩
  · rintro ⟨offset, stop, first, second⟩
    obtain ⟨front, name, rest, starts, nameFits, split, nameText, ends⟩ :=
      readBorshString_eq_some_iff.mp first
    obtain ⟨front', symbol, tail, starts', symbolFits, split', symbolText, _⟩ :=
      readBorshString_eq_some_iff.mp second
    have length : (front ++ prefixed 4 (utf8Bytes name)).length = front'.length := by
      rw [List.length_append, prefixed, List.length_append, length_leBytes]
      omega
    rw [List.append_assoc front'] at split'
    obtain ⟨_, behind⟩ := List.append_inj (split.symm.trans split') length
    refine ⟨front, name, symbol, tail, starts, nameFits, symbolFits, ?_, ?_⟩
    · rw [split, behind]
    · cases m
      rw [← nameText, ← symbolText]

theorem readNames_eq_ok_iff {head : Nat} {m : TokenMetadata} (noName noSymbol : ε) :
    (do
      let (name, offset) ← okOr noName (← readBorshString data head)
      let (symbol, _) ← okOr noSymbol (← readBorshString data offset)
      return ⟨name, symbol⟩ : Except (Fault ε) TokenMetadata) = .ok m ↔ Names head data m := by
  rw [names_iff (ε := ε)]
  have calm : ∀ o, ∃ read, readBorshString data o = (.ok read : Except (Fault ε) _) := by
    intro o
    obtain ⟨read, same, _⟩ := (@readBorshString_calm ε (fun _ => False) data o).always
      fun _ => id
    exact ⟨read, same⟩
  obtain ⟨first, named⟩ := calm head
  rw [named, ok_bind]
  cases first with
  | none =>
    constructor
    · intro same
      cases same
    · rintro ⟨offset, stop, same, _⟩
      cases same
  | some name =>
    obtain ⟨second, symboled⟩ := calm name.2
    rw [okOr, ok_bind]
    dsimp only
    rw [symboled, ok_bind]
    cases second with
    | none =>
      constructor
      · intro same
        cases same
      · rintro ⟨offset, stop, same, other⟩
        cases same
        cases symboled.symm.trans other
    | some symbol =>
      constructor
      · intro same
        cases same
        exact ⟨name.2, symbol.2, rfl, symboled⟩
      · rintro ⟨offset, stop, same, other⟩
        cases same
        cases symboled.symm.trans other
        rfl

theorem fetchMetaplexMetadata_eq_ok_iff {account : Nat → Except String (Option StoredAccount)}
    {m : TokenMetadata} : fetchMetaplexMetadata account = .ok m ↔
      ∃ acc, Visible account acc ∧ Names 65 acc.data m := by
  simp only [← lookup_eq_ok_iff]
  rw [fetchMetaplexMetadata]
  cases lookup account with
  | error e =>
    constructor
    · nofun
    · rintro ⟨acc, same, _⟩
      cases same
  | ok acc =>
    rw [mapErr, ok_bind, readNames_eq_ok_iff]
    constructor
    · intro names
      exact ⟨acc, rfl, names⟩
    · rintro ⟨acc', same, names⟩
      cases same
      exact names

theorem fetchMetaplexMetadata_calm (account : Nat → Except String (Option StoredAccount)) :
    Meets (fetchMetaplexMetadata account) (fun _ => True) fun _ => True := by
  unfold fetchMetaplexMetadata
  refine Meets.bind (meets_mapErr (fun _ => id) fun _ _ => trivial) fun acc _ => ?_
  refine (readBorshString_calm acc.data _).bind fun name _ => ?_
  refine Meets.bind (meets_okOr (fun _ => id) fun _ => trivial) fun first _ => ?_
  refine (readBorshString_calm acc.data first.2).bind fun symbol _ => ?_
  refine Meets.bind (meets_okOr (fun _ => id) fun _ => trivial) fun second _ => ?_
  exact meets_ok trivial

theorem readTokenMetadata_eq_ok_iff {ext : List UInt8} {m : TokenMetadata} :
    readTokenMetadata ext = .ok m ↔ Names 64 ext m := by
  rw [readTokenMetadata]
  split_ifs with short
  · constructor
    · intro same
      cases same
    · rintro ⟨front, name, symbol, tail, starts, _, _, split, _⟩
      rw [split, List.append_assoc, List.length_append] at short
      omega
  · exact readNames_eq_ok_iff _ _

/-- What the walk returns comes from the first entry of the metadata type. The induction is on the
bytes that are left. -/
theorem extensionFrom_ok {offset : Nat} {m : TokenMetadata}
    (returned : extensionFrom data offset = .ok m) :
    ∃ (extensions : List Extension) (entry : Extension) (rest : List UInt8),
      data.drop offset = extensions.flatMap Extension.encode ++ rest ∧
      extensions.find? (fun e => e.type = extTokenMetadata) = some entry ∧
      Names 64 entry.payload m := by
  induction left : data.length - offset using Nat.strong_induction_on generalizing offset with
  | _ left ih =>
    by_cases more : offset + 4 ≤ data.length
    · obtain ⟨front, type, length, rest, rfl, typeFits, lengthFits, split⟩ := header_split more
      rw [extensionFrom_header typeFits lengthFits split] at returned
      by_cases short : rest.length < length
      · rw [if_pos short] at returned
        cases returned
      have size : (rest.take length).length = length := by
        rw [List.length_take, Nat.min_eq_left (not_lt.mp short)]
      have here : data.drop front.length =
          leBytes 2 type ++ prefixed 2 (rest.take length) ++ rest.drop length := by
        rw [split, List.append_assoc, List.drop_left, prefixed, size]
        simp only [List.append_assoc, List.take_append_drop]
      have there : data.drop (front.length + 4 + length) = rest.drop length := by
        rw [Nat.add_assoc, ← List.drop_drop, here]
        apply List.drop_left'
        simp only [prefixed, List.length_append, length_leBytes, size]
        omega
      let entry : Extension := ⟨type, rest.take length, typeFits, by omega⟩
      rw [if_neg short] at returned
      by_cases isMetadata : type = extTokenMetadata
      · rw [if_pos isMetadata] at returned
        refine ⟨[entry], entry, rest.drop length, ?_, ?_, readTokenMetadata_eq_ok_iff.mp returned⟩
        · rw [here, List.flatMap_singleton, Extension.encode]
        · exact List.find?_cons_of_pos (decide_eq_true isMetadata)
      · rw [if_neg isMetadata] at returned
        obtain ⟨extensions, first, behind, same, found, names⟩ := ih _ (by omega) returned rfl
        refine ⟨entry :: extensions, first, behind, ?_, ?_, names⟩
        · rw [here, List.flatMap_cons, Extension.encode, ← there, same, List.append_assoc,
            List.append_assoc, List.append_assoc]
        · rw [List.find?_cons_of_neg (by simpa using isMetadata), found]
    · rw [extensionFrom, if_neg more] at returned
      cases returned

theorem token2022_calm (account : Except String StoredAccount) :
    Meets (fetchToken2022Metadata account) (fun _ => True) fun _ => True := by
  cases account with
  | error message => exact meets_failed trivial
  | ok acc => exact (fetchToken2022Metadata_meets acc).mono fun _ _ => trivial

theorem fetchToken2022Metadata_eq_ok_iff {acc : StoredAccount} {m : TokenMetadata} :
    fetchToken2022Metadata (.ok acc) = .ok m ↔ ExtensionNames acc.data m := by
  constructor
  · intro returned
    unfold fetchToken2022Metadata at returned
    rw [mapErr, ok_bind] at returned
    dsimp only at returned
    split at returned
    · cases returned
    next long =>
    have inside : accountTypeOffset < acc.data.length := Nat.lt_of_succ_le (not_lt.mp long)
    rw [index_eq_ok (List.getElem?_eq_getElem inside), ok_bind] at returned
    split at returned
    · cases returned
    next type =>
    obtain ⟨extensions, entry, rest, split, found, names⟩ := extensionFrom_ok returned
    refine ⟨acc.data.take 165, extensions, entry, rest, ?_, ?_, found, names⟩
    · rw [List.length_take]
      exact Nat.min_eq_left inside.le
    · have cut : acc.data.drop 165 = 1 :: acc.data.drop tlvStart := by
        change acc.data.drop accountTypeOffset = _
        rw [List.drop_eq_getElem_cons inside]
        congr 1
        exact not_not.mp type
      rw [mintData, List.append_assoc _ (extensions.flatMap _), ← split, List.append_assoc,
        List.singleton_append, ← cut, List.take_append_drop]
  · rintro ⟨base, extensions, entry, rest, base_length, split, found, names⟩
    have parsed := @fetchToken2022Metadata_mint acc.owner _ rest extensions base_length
    rw [← split] at parsed
    rw [parsed, split, extensionFrom_first base_length found]
    exact readTokenMetadata_eq_ok_iff.mpr names

end Grammar

/-- The metadata account decides first: when it becomes visible and holds the two strings, they are
the result. When it does not, the mint's own extension decides. Only when neither holds is there an
error, that of both; and no bytes make the parsers panic. -/
theorem fetchTokenMetadata_accepts (rpc : MetadataRpc) (mint : String) :
    fetchTokenMetadata rpc mint ≠ .error .panicked ∧
    (∀ m, fetchTokenMetadata rpc mint = .ok m ↔
      (∃ acc, Visible rpc.metaplexAccount acc ∧ Names 65 acc.data m) ∨
      (¬ ∃ acc m', Visible rpc.metaplexAccount acc ∧ Names 65 acc.data m') ∧
        ∃ acc, Visible rpc.mintAccount acc ∧ ExtensionNames acc.data m) ∧
    ∀ e, fetchTokenMetadata rpc mint = .error (.failed e) →
      fetchMetaplexMetadata rpc.metaplexAccount = .error (.failed e.metaplex) ∧
      fetchToken2022Metadata ((lookup rpc.mintAccount).mapError (LookupError.message mint)) =
        .error (.failed e.token2022) := by
  have classic := fun m => @fetchMetaplexMetadata_eq_ok_iff rpc.metaplexAccount m
  have extension : ∀ m, fetchToken2022Metadata
      ((lookup rpc.mintAccount).mapError (LookupError.message mint)) = .ok m ↔
        ∃ acc, Visible rpc.mintAccount acc ∧ ExtensionNames acc.data m := by
    intro m
    simp only [← lookup_eq_ok_iff, ← fetchToken2022Metadata_eq_ok_iff]
    cases lookup rpc.mintAccount with
    | error e =>
      constructor
      · nofun
      · rintro ⟨acc, same, _⟩
        cases same
    | ok acc =>
      constructor
      · intro returned
        exact ⟨acc, rfl, returned⟩
      · rintro ⟨acc', same, returned⟩
        cases same
        exact returned
  have second := (token2022_calm ((lookup rpc.mintAccount).mapError
    (LookupError.message mint))).caught (δ := MetadataErrors)
  unfold fetchTokenMetadata
  obtain ⟨m, returned, _, caught⟩ | ⟨e, failed, _, caught⟩ :=
    (fetchMetaplexMetadata_calm rpc.metaplexAccount).caught (δ := MetadataErrors)
  · rw [caught, ok_bind]
    refine ⟨nofun, ?_, nofun⟩
    intro m'
    constructor
    · intro same
      cases same
      exact .inl ((classic m).mp returned)
    · rintro (names | ⟨none, _⟩)
      · cases returned.symm.trans ((classic m').mpr names)
        rfl
      · obtain ⟨acc, visible, names⟩ := (classic m).mp returned
        exact absurd ⟨acc, m, visible, names⟩ none
  · have none : ¬ ∃ acc m', Visible rpc.metaplexAccount acc ∧ Names 65 acc.data m' := by
      rintro ⟨acc, m', names⟩
      cases failed.symm.trans ((classic m').mpr ⟨acc, names⟩)
    have noNames : ∀ m, ¬ ∃ acc, Visible rpc.metaplexAccount acc ∧ Names 65 acc.data m :=
      fun m ⟨acc, names⟩ => none ⟨acc, m, names⟩
    rw [caught, ok_bind]
    obtain ⟨m, returned, _, caught⟩ | ⟨e', failed', _, caught⟩ := second
    · dsimp only
      rw [caught, ok_bind]
      refine ⟨nofun, ?_, nofun⟩
      intro m'
      simp only [noNames, false_or, none, not_false_eq_true, true_and, ← extension, returned]
      constructor
      · intro same
        cases same
        rfl
      · intro same
        cases same
        rfl
    · dsimp only
      rw [caught, ok_bind]
      refine ⟨nofun, ?_, ?_⟩
      · intro m'
        simp only [noNames, false_or, none, not_false_eq_true, true_and, ← extension, failed']
        constructor <;> nofun
      · intro both same
        cases same
        exact ⟨failed, failed'⟩

end HadesPsTrader.Chain
