/- Module: HadesPsTrader/Chain/TokenMetadata
   source: src/onchain.rs
   digest: The name and symbol in the Token-2022 extension area of a mint. -/

import HadesPsTrader.Chain.Accounts
import HadesPsTrader.Market.Position

set_option autoImplicit false
set_option relaxedAutoImplicit false

namespace HadesPsTrader.Chain

open Interaction
open Market (trim)

structure TokenMetadata where
  name : String
  symbol : String
  deriving DecidableEq

inductive MetadataError
  | account (message : String)
  | tooShort
  | noExtensionArea
  | extTooShort
  | nameParse
  | symbolParse
  | notFound
  deriving DecidableEq

def accountTypeOffset : Nat := 165
def tlvStart : Nat := 166
def extTokenMetadata : Nat := 19

/-- `str::trim_end_matches` of a character. -/
def trimEndMatches (c : Char) (cs : List Char) : List Char :=
  (cs.reverse.dropWhile (· = c)).reverse

/-- Trailing NULs removed, then the whitespace around what is left. -/
def displayText (s : String) : String :=
  String.ofList (trim (trimEndMatches (Char.ofNat 0) s.toList))

/-- The string at `offset` and the offset behind it. A `usize` holds all the sums here: a slice has
fewer than `2 ^ 63` bytes and a length fewer than `2 ^ 32`. -/
def readBorshString {ε : Type} (data : List UInt8) (offset : Nat) :
    Except (Fault ε) (Option (String × Nat)) :=
  if data.length < offset + 4 then .ok none
  else do
    let len := leValue (← slice data offset (offset + 4))
    if data.length < offset + 4 + len then .ok none
    else do
      let raw ← slice data (offset + 4) (offset + 4 + len)
      return (fromUtf8 raw).map fun s => (displayText s, offset + 4 + len)

/-- Layout: update_authority(32) | mint(32) | name(borsh) | symbol(borsh) | uri | … -/
def readTokenMetadata (ext : List UInt8) : Except (Fault MetadataError) TokenMetadata :=
  if ext.length < 64 then .error (.failed .extTooShort)
  else do
    let (name, o) ← okOr .nameParse (← readBorshString ext 64)
    let (symbol, _) ← okOr .symbolParse (← readBorshString ext o)
    return ⟨name, symbol⟩

def extensionFrom (data : List UInt8) (offset : Nat) :
    Except (Fault MetadataError) TokenMetadata :=
  if offset + 4 ≤ data.length then do
    let extType ← readU16 data offset
    let extLen ← readU16 data (offset + 2)
    if data.length < offset + 4 + extLen then .error (.failed .notFound)
    else if extType = extTokenMetadata then do
      let ext ← slice data (offset + 4) (offset + 4 + extLen)
      readTokenMetadata ext
    else extensionFrom data (offset + 4 + extLen)
  else .error (.failed .notFound)
termination_by data.length - offset

def fetchToken2022Metadata (account : Except String StoredAccount) :
    Except (Fault MetadataError) TokenMetadata := do
  let acc ← mapErr .account account
  if acc.data.length < tlvStart then throw (.failed .tooShort)
  let accountType ← index acc.data accountTypeOffset
  if accountType ≠ 1 then throw (.failed .noExtensionArea)
  extensionFrom acc.data tlvStart

/-- A well-formed extension. -/
structure Extension where
  type : Nat
  payload : List UInt8
  typeFits : type < 2 ^ 16
  payloadFits : payload.length < 2 ^ 16

def Extension.encode (e : Extension) : List UInt8 := leBytes 2 e.type ++ prefixed 2 e.payload

/-- The data of a mint account with extensions, and whatever follows them. -/
def mintData (base : List UInt8) (extensions : List Extension) (rest : List UInt8) : List UInt8 :=
  base ++ [1] ++ extensions.flatMap Extension.encode ++ rest

def metadataPayload (authority mint : List UInt8) (name symbol : String) (tail : List UInt8) :
    List UInt8 :=
  authority ++ mint ++ prefixed 4 (utf8Bytes name) ++ (prefixed 4 (utf8Bytes symbol) ++ tail)

/-- At `offset` stands a complete entry with this type and payload. -/
def EntryAt (data : List UInt8) (offset type : Nat) (payload : List UInt8) : Prop :=
  type < 2 ^ 16 ∧ payload.length < 2 ^ 16 ∧
    ∃ front rest, front.length = offset ∧
      data = front ++ (leBytes 2 type ++ prefixed 2 payload) ++ rest

/-- The offsets that the walk over complete entries reaches. -/
inductive WalkReaches (data : List UInt8) : Nat → Prop
  | start : WalkReaches data tlvStart
  | next {offset type : Nat} {payload : List UInt8} (before : WalkReaches data offset)
      (entry : EntryAt data offset type payload) : WalkReaches data (offset + 4 + payload.length)

end HadesPsTrader.Chain
