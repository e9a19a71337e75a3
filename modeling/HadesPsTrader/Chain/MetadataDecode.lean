/- Module: HadesPsTrader/Chain/MetadataDecode
   source: src/onchain.rs
   digest: The metadata parser inverts the encoding and reads within its bounds. -/

import HadesPsTrader.Chain.TokenMetadata

set_option autoImplicit false
set_option relaxedAutoImplicit false

namespace HadesPsTrader.Chain

open Interaction

section Reading

variable {ε : Type}

theorem readBorshString_prefixed (front rest : List UInt8) (s : String) {offset : Nat}
    (starts : front.length = offset) (fits : (utf8Bytes s).length < 2 ^ 32) :
    readBorshString (front ++ prefixed 4 (utf8Bytes s) ++ rest) offset =
      (.ok (some (displayText s, offset + 4 + (utf8Bytes s).length)) : Except (Fault ε) _) := by
  have length : (front ++ prefixed 4 (utf8Bytes s) ++ rest).length =
      offset + (4 + (utf8Bytes s).length) + rest.length := by
    rw [List.length_append, List.length_append, prefixed, List.length_append, length_leBytes,
      starts]
  have value : leValue (leBytes 4 (utf8Bytes s).length) = (utf8Bytes s).length :=
    leValue_leBytes fits
  have header : slice (front ++ prefixed 4 (utf8Bytes s) ++ rest) offset (offset + 4) =
      (.ok (leBytes 4 (utf8Bytes s).length) : Except (Fault ε) _) := by
    have := slice_append (ε := ε) front (leBytes 4 (utf8Bytes s).length)
      (utf8Bytes s ++ rest) starts (by rw [length_leBytes])
    rw [← this, prefixed]
    simp only [List.append_assoc]
  have body : slice (front ++ prefixed 4 (utf8Bytes s) ++ rest) (offset + 4)
      (offset + 4 + (utf8Bytes s).length) = (.ok (utf8Bytes s) : Except (Fault ε) _) := by
    have := slice_append (ε := ε) (front ++ leBytes 4 (utf8Bytes s).length) (utf8Bytes s) rest
      (by rw [List.length_append, length_leBytes, starts]) rfl
    rw [← this, prefixed]
    simp only [List.append_assoc]
  rw [readBorshString, if_neg (by omega), header, ok_bind, value, if_neg (by omega), body, ok_bind,
    fromUtf8_utf8Bytes]
  rfl

theorem readBorshString_calm {fail : ε → Prop} (data : List UInt8) (offset : Nat) :
    Meets (readBorshString data offset) (fun _ => True) fail := by
  rw [readBorshString]
  split
  · exact meets_ok trivial
  · next header =>
    rw [slice_eq_ok (by omega) (by omega), ok_bind]
    dsimp only
    split
    · exact meets_ok trivial
    · next body =>
      rw [slice_eq_ok (by omega) (by omega), ok_bind]
      exact meets_ok trivial

end Reading

theorem readTokenMetadata_payload {authority mint tail : List UInt8} {name symbol : String}
    (authority_length : authority.length = 32) (mint_length : mint.length = 32)
    (fits : (metadataPayload authority mint name symbol tail).length < 2 ^ 16) :
    readTokenMetadata (metadataPayload authority mint name symbol tail) =
      .ok ⟨displayText name, displayText symbol⟩ := by
  have length : (metadataPayload authority mint name symbol tail).length =
      72 + (utf8Bytes name).length + (utf8Bytes symbol).length + tail.length := by
    simp only [metadataPayload, prefixed, List.length_append, length_leBytes]
    omega
  have keys : (authority ++ mint).length = 64 := by
    rw [List.length_append, authority_length, mint_length]
  have named : (authority ++ mint ++ prefixed 4 (utf8Bytes name)).length =
      64 + 4 + (utf8Bytes name).length := by
    rw [List.length_append, keys, prefixed, List.length_append, length_leBytes, Nat.add_assoc]
  have first := readBorshString_prefixed (ε := MetadataError) (authority ++ mint)
    (prefixed 4 (utf8Bytes symbol) ++ tail) name keys (by omega)
  have second := readBorshString_prefixed (ε := MetadataError)
    (authority ++ mint ++ prefixed 4 (utf8Bytes name)) tail symbol
    named (by omega)
  rw [List.append_assoc] at second
  rw [readTokenMetadata, if_neg (by omega), metadataPayload, first, ok_bind, okOr, ok_bind]
  dsimp only
  rw [second]
  rfl

theorem readTokenMetadata_calm (ext : List UInt8) :
    Meets (readTokenMetadata ext) (fun _ => True) fun _ => True := by
  rw [readTokenMetadata]
  split
  · exact meets_failed trivial
  · refine (readBorshString_calm ext 64).bind fun name _ => ?_
    refine Meets.bind (meets_okOr (fun _ => id) fun _ => trivial) fun first _ => ?_
    refine (readBorshString_calm ext first.2).bind fun symbol _ => ?_
    refine Meets.bind (meets_okOr (fun _ => id) fun _ => trivial) fun second _ => ?_
    exact meets_ok trivial

theorem extensionFrom_header {front rest : List UInt8} {type length : Nat}
    (typeFits : type < 2 ^ 16) (lengthFits : length < 2 ^ 16) {data : List UInt8}
    (split : data = front ++ (leBytes 2 type ++ leBytes 2 length) ++ rest) :
    extensionFrom data front.length =
      if rest.length < length then .error (.failed .notFound)
      else if type = extTokenMetadata then readTokenMetadata (rest.take length)
      else extensionFrom data (front.length + 4 + length) := by
  have total : data.length = front.length + 4 + rest.length := by
    simp only [split, List.length_append, length_leBytes]
  have first : readU16 data front.length = (.ok type : Except (Fault MetadataError) Nat) := by
    have := readU16_append (ε := MetadataError) front (leBytes 2 length ++ rest) rfl typeFits
    rw [← this, split]
    simp only [List.append_assoc]
  have second : readU16 data (front.length + 2) =
      (.ok length : Except (Fault MetadataError) Nat) := by
    have := readU16_append (ε := MetadataError) (front ++ leBytes 2 type) rest
      (by rw [List.length_append, length_leBytes]) lengthFits
    rw [← this, split]
    simp only [List.append_assoc]
  rw [extensionFrom, if_pos (by omega), first, ok_bind, second, ok_bind]
  by_cases short : rest.length < length
  · rw [if_pos short, if_pos (by omega)]
  · rw [if_neg short, if_neg (by omega)]
    by_cases isMetadata : type = extTokenMetadata
    · have body : slice data (front.length + 4) (front.length + 4 + length) =
          (.ok (rest.take length) : Except (Fault MetadataError) _) := by
        rw [slice_eq_ok (by omega) (by omega), Nat.add_sub_cancel_left, split]
        congr 2
        apply List.drop_left'
        simp only [List.length_append, length_leBytes]
      rw [if_pos isMetadata, if_pos isMetadata, body, ok_bind]
    · rw [if_neg isMetadata, if_neg isMetadata]

theorem header_split {data : List UInt8} {offset : Nat} (more : offset + 4 ≤ data.length) :
    ∃ front type length rest, front.length = offset ∧ type < 2 ^ 16 ∧ length < 2 ^ 16 ∧
      data = front ++ (leBytes 2 type ++ leBytes 2 length) ++ rest := by
  have behind : 4 ≤ (data.drop offset).length := by
    rw [List.length_drop]
    omega
  have split := List.take_append_drop offset data
  match same : data.drop offset, behind with
  | a :: b :: c :: d :: rest, _ =>
    have type : leBytes 2 (leValue [a, b]) = [a, b] := leBytes_leValue [a, b]
    have length : leBytes 2 (leValue [c, d]) = [c, d] := leBytes_leValue [c, d]
    have width : 256 ^ 2 = 2 ^ 16 := by decide
    refine ⟨data.take offset, leValue [a, b], leValue [c, d], rest, ?_,
      lt_of_lt_of_eq (leValue_lt [a, b]) width, lt_of_lt_of_eq (leValue_lt [c, d]) width, ?_⟩
    · rw [List.length_take, Nat.min_eq_left (by omega)]
    · rw [same] at split
      rw [type, length, List.append_assoc]
      exact split.symm

theorem extensionFrom_meets {data : List UInt8} {offset : Nat} (reached : WalkReaches data offset) :
    Meets (extensionFrom data offset)
      (fun _ => ∃ o payload, WalkReaches data o ∧ EntryAt data o extTokenMetadata payload)
      fun _ => True := by
  induction left : data.length - offset using Nat.strong_induction_on generalizing offset with
  | _ left ih =>
    by_cases more : offset + 4 ≤ data.length
    · obtain ⟨front, type, length, rest, rfl, typeFits, lengthFits, split⟩ := header_split more
      rw [extensionFrom_header typeFits lengthFits split]
      by_cases short : rest.length < length
      · rw [if_pos short]
        exact meets_failed trivial
      · have size : (rest.take length).length = length := by
          rw [List.length_take, Nat.min_eq_left (not_lt.mp short)]
        have entry : EntryAt data front.length type (rest.take length) := by
          refine ⟨typeFits, by omega, front, rest.drop length, rfl, ?_⟩
          rw [prefixed, size, split]
          simp only [List.append_assoc, List.take_append_drop]
        rw [if_neg short]
        by_cases isMetadata : type = extTokenMetadata
        · rw [if_pos isMetadata]
          subst isMetadata
          exact (readTokenMetadata_calm _).mono fun _ _ => ⟨_, _, reached, entry⟩
        · have onwards := reached.next entry
          rw [size] at onwards
          rw [if_neg isMetadata]
          exact ih _ (by omega) onwards rfl
    · rw [extensionFrom, if_neg more]
      exact meets_failed trivial

theorem extensionFrom_skip {data front rest : List UInt8} {decoys : List Extension}
    (others : ∀ e ∈ decoys, e.type ≠ extTokenMetadata)
    (split : data = front ++ decoys.flatMap Extension.encode ++ rest) :
    extensionFrom data front.length =
      extensionFrom data (front ++ decoys.flatMap Extension.encode).length := by
  induction decoys generalizing front with
  | nil => simp
  | cons e decoys ih =>
    obtain ⟨other, others⟩ := List.forall_mem_cons.mp others
    have header : data = front ++ (leBytes 2 e.type ++ leBytes 2 e.payload.length) ++
        (e.payload ++ decoys.flatMap Extension.encode ++ rest) := by
      rw [split, List.flatMap_cons, Extension.encode, prefixed]
      simp only [List.append_assoc]
    have complete : ¬ (e.payload ++ decoys.flatMap Extension.encode ++ rest).length <
        e.payload.length := by
      simp only [List.length_append]
      omega
    have regrouped : data = (front ++ e.encode) ++ decoys.flatMap Extension.encode ++ rest := by
      rw [split, List.flatMap_cons]
      simp only [List.append_assoc]
    have size : (front ++ e.encode).length = front.length + 4 + e.payload.length := by
      simp only [Extension.encode, prefixed, List.length_append, length_leBytes]
      omega
    rw [extensionFrom_header e.typeFits e.payloadFits header, if_neg complete, if_neg other, ← size,
      ih others regrouped, List.flatMap_cons, List.append_assoc]

theorem fetchToken2022Metadata_meets (acc : StoredAccount) :
    Meets (fetchToken2022Metadata (.ok acc)) (fun _ => ∃ o payload, WalkReaches acc.data o ∧
      EntryAt acc.data o extTokenMetadata payload) fun _ => True := by
  unfold fetchToken2022Metadata
  rw [mapErr, ok_bind]
  dsimp only
  split
  · exact meets_failed trivial
  · next long =>
    have inside : accountTypeOffset < acc.data.length := Nat.lt_of_succ_le (not_lt.mp long)
    rw [index_eq_ok (List.getElem?_eq_getElem inside), ok_bind]
    split
    · exact meets_failed trivial
    · exact extensionFrom_meets .start

theorem extensionFrom_first {base rest : List UInt8} {extensions : List Extension}
    {first : Extension} (base_length : base.length = 165)
    (found : extensions.find? (fun e => e.type = extTokenMetadata) = some first) :
    extensionFrom (mintData base extensions rest) tlvStart = readTokenMetadata first.payload := by
  obtain ⟨isMetadata, decoys, after, rfl, others⟩ := List.find?_eq_some_iff_append.mp found
  have start : (base ++ [1]).length = tlvStart := by
    rw [List.length_append, base_length]
    rfl
  have decoy : ∀ e ∈ decoys, e.type ≠ extTokenMetadata := by
    intro e mem
    simpa using others e mem
  have split : mintData base (decoys ++ first :: after) rest =
      (base ++ [1]) ++ decoys.flatMap Extension.encode ++
        (first.encode ++ after.flatMap Extension.encode ++ rest) := by
    rw [mintData, List.flatMap_append, List.flatMap_cons]
    simp only [List.append_assoc]
  have header : mintData base (decoys ++ first :: after) rest =
      ((base ++ [1]) ++ decoys.flatMap Extension.encode) ++
        (leBytes 2 first.type ++ leBytes 2 first.payload.length) ++
        (first.payload ++ (after.flatMap Extension.encode ++ rest)) := by
    rw [split, Extension.encode, prefixed]
    simp only [List.append_assoc]
  have complete : ¬ (first.payload ++ (after.flatMap Extension.encode ++ rest)).length <
      first.payload.length := by
    rw [List.length_append]
    omega
  rw [← start, extensionFrom_skip decoy split,
    extensionFrom_header first.typeFits first.payloadFits header, if_neg complete,
    if_pos (of_decide_eq_true isMetadata), List.take_left]

theorem fetchToken2022Metadata_mint (owner : Pubkey) {base rest : List UInt8}
    {extensions : List Extension} (base_length : base.length = 165) :
    fetchToken2022Metadata (.ok ⟨owner, mintData base extensions rest⟩) =
      extensionFrom (mintData base extensions rest) tlvStart := by
  have split : mintData base extensions rest =
      base ++ (1 :: (extensions.flatMap Extension.encode ++ rest)) := by
    rw [mintData]
    simp only [List.append_assoc, List.cons_append, List.nil_append]
  have long : ¬ (mintData base extensions rest).length < tlvStart := by
    rw [split, List.length_append, List.length_cons, base_length, tlvStart]
    omega
  have accountType : (mintData base extensions rest)[accountTypeOffset]? = some 1 := by
    rw [split, List.getElem?_append_right (by rw [base_length]; rfl), base_length]
    rfl
  unfold fetchToken2022Metadata
  rw [mapErr, ok_bind]
  dsimp only
  rw [if_neg long, index_eq_ok accountType, ok_bind]
  rfl

/-- The parser inverts the encoding of any mint with extensions, whatever follows them; it fails
where its walk meets no complete entry of the type; and it never indexes out of bounds. -/
theorem token2022_metadata :
    (∀ (owner : Pubkey) (base rest authority mint tail : List UInt8) (extensions : List Extension)
        (name symbol : String) (first : Extension), base.length = 165 → authority.length = 32 →
        mint.length = 32 →
        extensions.find? (fun e => e.type = extTokenMetadata) = some first →
        first.payload = metadataPayload authority mint name symbol tail →
      fetchToken2022Metadata (.ok ⟨owner, mintData base extensions rest⟩) =
        .ok ⟨displayText name, displayText symbol⟩) ∧
    (∀ acc : StoredAccount, (∀ offset payload, WalkReaches acc.data offset →
        ¬ EntryAt acc.data offset extTokenMetadata payload) →
      ∃ e, fetchToken2022Metadata (.ok acc) = .error (.failed e)) ∧
    ∀ account : Except String StoredAccount, fetchToken2022Metadata account ≠ .error .panicked := by
  refine ⟨?_, ?_, ?_⟩
  · intro owner base rest authority mint tail extensions name symbol first base_length
      authority_length mint_length found content
    have fits := first.payloadFits
    rw [content] at fits
    rw [fetchToken2022Metadata_mint owner base_length, extensionFrom_first base_length found,
      content, readTokenMetadata_payload authority_length mint_length fits]
  · intro acc none
    exact (fetchToken2022Metadata_meets acc).never fun _ ⟨o, payload, reached, entry⟩ =>
      none o payload reached entry
  · intro account
    cases account with
    | error message => exact nofun
    | ok acc => exact (fetchToken2022Metadata_meets acc).calm

/-- A name padded with a blank and two NULs. -/
def paddedName : String := String.ofList ("Hades ".toList ++ List.replicate 2 (Char.ofNat 0))

def paddedPayload : List UInt8 :=
  metadataPayload (List.replicate 32 7) (List.replicate 32 8) paddedName "HDS" [0, 0]

def paddedExtensions : List Extension :=
  [⟨18, paddedPayload, by decide, by decide +kernel⟩,
    ⟨19, paddedPayload, by decide, by decide +kernel⟩]

theorem token2022_metadata_padded :
    fetchToken2022Metadata
        (.ok ⟨⟨0⟩, mintData (List.replicate 165 0) paddedExtensions [255, 255]⟩) =
      .ok ⟨"Hades", "HDS"⟩ := by
  have read := token2022_metadata.1 ⟨0⟩ (List.replicate 165 0) [255, 255] (List.replicate 32 7)
    (List.replicate 32 8) [0, 0] paddedExtensions paddedName "HDS" _ (List.length_replicate ..)
    (List.length_replicate ..) (List.length_replicate ..) rfl rfl
  have name : displayText paddedName = "Hades" := by decide +kernel
  have symbol : displayText "HDS" = "HDS" := by decide +kernel
  rw [name, symbol] at read
  exact read

end HadesPsTrader.Chain
