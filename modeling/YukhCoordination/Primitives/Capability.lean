import Mathlib.Algebra.Ring.Int.Defs
import Mathlib.Algebra.Ring.Nat
import Mathlib.Data.List.Basic
import YukhCoordination.Coordination.Store
import YukhCoordination.Lib.Base64
import YukhCoordination.Lib.Transaction

/-!
# Sealed capabilities

The model of `internal/primitives/capability.go`, with the cipher as a parameter. Not every sealed
state is opened again (`open_dotted_key`).
-/

namespace YukhCoordination.Primitives

open Transaction
open Coordination (Digest Time validDigest millisecond)

/-- The closed errors of the service. -/
inductive Error where
  | invalidArgument
  | unavailable
  | conflict
  | invariant
  deriving DecidableEq, Repr

/-- `maxSafeInteger`. -/
def maxSafeInteger : Nat := 9007199254740991

/-- The characters of an identifier. -/
def identifierChar (c : Char) : Bool :=
  ('a' ≤ c && c ≤ 'z') || ('A' ≤ c && c ≤ 'Z') || ('0' ≤ c && c ≤ '9') ||
    c == '.' || c == '_' || c == ':' || c == '-'

/-- `validIdentifier`. -/
def validIdentifier (value : String) : Bool :=
  value != "" && value.utf8ByteSize ≤ 256 && value.toList.all identifierChar

/-- `Identity`, as `NewIdentity` makes it. -/
structure Identity where
  tenant : String
  principal : String
  valid : validIdentifier tenant && validIdentifier principal

/-- `SealingKey`, as `NewSealingKey` makes it. -/
structure SealingKey where
  id : String
  bytes : List UInt8
  valid : validIdentifier id && bytes.length == 32

/-- `CapabilityState`. -/
structure CapabilityState where
  key : Digest
  holder : Digest
  expiresAt : Time
  epoch : Nat
  fencingToken : Nat
  tokenID : List UInt8
  deriving DecidableEq, Repr

/-- What `NewCapabilityState`, with `NewLeaseResumeValue`, asks of a state. The token has 16 bytes
by its type. -/
def CapabilityState.valid (state : CapabilityState) : Bool :=
  validDigest state.holder && state.expiresAt.utc && state.expiresAt.unixNano % millisecond == 0 &&
    0 < state.epoch && state.epoch ≤ maxSafeInteger &&
    0 < state.fencingToken && state.fencingToken ≤ maxSafeInteger &&
    validDigest state.key && state.tokenID.length == 16 && state.tokenID.any (· != 0)

/-! ## The encoding of a state -/

/-- The bytes of a text of digits and letters. -/
def bytesOf (text : String) : List UInt8 := text.toList.map fun c => .ofNat c.toNat

/-- The text of bytes. A byte beyond ASCII is no character of a digest. -/
def textOf (bytes : List UInt8) : String := .ofList (bytes.map fun b => .ofNat b.toNat)

/-- `binary.BigEndian.PutUint64`. -/
def putUint64 (n : Nat) : List UInt8 :=
  [56, 48, 40, 32, 24, 16, 8, 0].map fun i => .ofNat (n / 2 ^ i)

/-- `binary.BigEndian.Uint64`. -/
def uint64 (bytes : List UInt8) : Nat := bytes.foldl (fun n b => n * 256 + b.toNat) 0

/-- `expiresAt.UnixMilli()`. -/
def CapabilityState.expiresMillis (state : CapabilityState) : Int :=
  state.expiresAt.unixNano / millisecond

/-- `encodeState`. -/
def encodeState (state : CapabilityState) : Option (List UInt8) :=
  if state.valid then
    some (bytesOf state.key ++ (bytesOf state.holder ++
      (putUint64 (state.expiresMillis % 2 ^ 64).toNat ++
        (putUint64 state.epoch ++ (putUint64 state.fencingToken ++ state.tokenID)))))
  else none

/-- `raw[i:j]`. -/
def slice (raw : List UInt8) (i j : Nat) : List UInt8 := (raw.drop i).take (j - i)

/-- `decodeState`. -/
def decodeState (raw : List UInt8) : Except Error CapabilityState := do
  ensure (raw.length == 168) .conflict
  let expiresMillis := uint64 (slice raw 128 136)
  ensure (expiresMillis ≤ maxSafeInteger) .conflict
  let state : CapabilityState := ⟨textOf (slice raw 0 64), textOf (slice raw 64 128),
    ⟨expiresMillis * millisecond, true⟩, uint64 (slice raw 136 144), uint64 (slice raw 144 152),
    slice raw 152 168⟩
  ensure state.valid .conflict
  return state

/-! ## Sealing -/

/-- AES-GCM: what it seals is opened again, and is 16 bytes longer. The associated data is given as
the text whose bytes it is. -/
structure AEAD where
  sealWith : (key nonce plaintext : List UInt8) → (aad : String) → List UInt8
  openWith : (key nonce ciphertext : List UInt8) → (aad : String) → Option (List UInt8)
  open_seal : ∀ key nonce plaintext aad,
    openWith key nonce (sealWith key nonce plaintext aad) aad = some plaintext
  length_seal : ∀ key nonce plaintext aad,
    (sealWith key nonce plaintext aad).length = plaintext.length + 16

/-- A ciphertext is not opened with other associated data than it was sealed with. -/
def AEAD.Authenticates (aead : AEAD) (key nonce plaintext : List UInt8) (aad : String) : Prop :=
  ∀ aad', aad' ≠ aad → aead.openWith key nonce (aead.sealWith key nonce plaintext aad) aad' = none

/-- The answers of a `SealingKeyProvider`. -/
structure SealingKeyProvider where
  active : Option SealingKey
  openKey : String → Option SealingKey

/-- The first line of the associated data. -/
def aadHeader : String := "yukh:coordination-primitives:capability:v1"

/-- `capabilityAAD`. -/
def capabilityAAD (identity : Identity) (keyID : String) : String :=
  aadHeader ++ "\n" ++ keyID ++ "\n" ++ identity.tenant ++ "\n" ++ identity.principal

/-- `base64.RawURLEncoding.EncodeToString`; `DecodeString` skips line ends
(`Base64.decodeLines`). -/
def encodeToString (bytes : List UInt8) : String := .ofList (Base64.encode bytes)

/-- `AEADSealer.Seal`, with the nonce that it reads. -/
def sealState (aead : AEAD) (keys : SealingKeyProvider) (nonce : List UInt8) (identity : Identity)
    (state : CapabilityState) : Except Error String := do
  let key ← required keys.active .unavailable
  let plaintext ← required (encodeState state) .invariant
  let ciphertext := aead.sealWith key.bytes nonce plaintext (capabilityAAD identity key.id)
  return "v1." ++ key.id ++ "." ++ encodeToString nonce ++ "." ++ encodeToString ciphertext

/-- `AEADSealer.Open`. -/
def openState (aead : AEAD) (keys : SealingKeyProvider) (identity : Identity)
    (capability : String) : Except Error CapabilityState := do
  match List.splitOn '.' capability.toList with
  | [version, id, nonce, ciphertext] =>
    ensure (version == "v1".toList && validIdentifier (.ofList id)) .conflict
    let key ← required ((keys.openKey (.ofList id)).filter (·.id == .ofList id)) .unavailable
    let nonce ← required (Base64.decodeLines nonce) .conflict
    let ciphertext ← required (Base64.decodeLines ciphertext) .conflict
    ensure (nonce.length == 12 && ciphertext.length == 168 + 16) .conflict
    let plaintext ← required
      (aead.openWith key.bytes nonce ciphertext (capabilityAAD identity key.id)) .conflict
    decodeState plaintext
  | _ => throw .conflict

/-! ## Round trips -/

section
variable {digest : Digest} {state : CapabilityState} {value : String}

/-- A number of 64 bits is read as it was put. -/
theorem uint64_putUint64 {n : Nat} (h : n < 2 ^ 64) : uint64 (putUint64 n) = n := by
  simp only [putUint64, uint64, List.map_cons, List.map_nil, List.foldl_cons, List.foldl_nil,
    UInt8.toNat_ofNat']
  omega

/-- The parts of an encoded state, by their lengths. -/
theorem slices_append {A B E P F T : List UInt8} (hA : A.length = 64) (hB : B.length = 64)
    (hE : E.length = 8) (hP : P.length = 8) (hF : F.length = 8) (hT : T.length = 16)
    {raw : List UInt8} (hraw : raw = A ++ (B ++ (E ++ (P ++ (F ++ T))))) :
    raw.length = 168 ∧ slice raw 0 64 = A ∧ slice raw 64 128 = B ∧ slice raw 128 136 = E ∧
      slice raw 136 144 = P ∧ slice raw 144 152 = F ∧ slice raw 152 168 = T := by
  subst hraw
  simp [slice, List.drop_append, List.drop_of_length_le, List.take_of_length_le, hA, hB, hE, hP, hF,
    hT]

/-- A digest has 64 bytes. -/
theorem length_bytesOf (h : validDigest digest) : (bytesOf digest).length = 64 := by
  simp only [validDigest, Bool.and_eq_true, beq_iff_eq] at h
  rw [bytesOf, List.length_map, String.length_toList, h.1]

/-- A digest is read again from its bytes. -/
theorem textOf_bytesOf (h : validDigest digest) : textOf (bytesOf digest) = digest := by
  simp only [validDigest, Bool.and_eq_true] at h
  have hbyte : ∀ c ∈ digest.toList,
      ((fun b : UInt8 => Char.ofNat b.toNat) ∘ fun c : Char => .ofNat c.toNat) c = c := by
    intro c hc
    have hchar := List.all_eq_true.1 h.2 c hc
    simp only [Bool.or_eq_true, Bool.and_eq_true, decide_eq_true_eq, Char.le_def,
      UInt32.le_iff_toNat_le] at hchar
    have hlt : c.toNat < 256 := by
      rcases hchar with ⟨-, h⟩ | ⟨-, h⟩ <;> exact lt_of_le_of_lt h (by decide)
    rw [Function.comp_apply, UInt8.toNat_ofNat', Nat.mod_eq_of_lt hlt, Char.ofNat_toNat]
  rw [textOf, bytesOf, List.map_map, List.map_congr_left hbyte, List.map_id', String.ofList_toList]

/-- The state that was decoded expires between the Unix epoch and the last safe millisecond. -/
theorem expiresMillis_of_decodeState {raw : List UInt8} (h : decodeState raw = .ok state) :
    0 ≤ state.expiresMillis ∧ state.expiresMillis ≤ maxSafeInteger := by
  obtain ⟨-, h⟩ := ensure_bind.1 h
  obtain ⟨hbound, h⟩ := ensure_bind.1 h
  obtain ⟨-, h⟩ := ensure_bind.1 h
  cases h
  have hmillis : ∀ n : Nat, (n * millisecond : Int) / millisecond = n := fun n =>
    Int.mul_ediv_cancel _ (by decide)
  rw [CapabilityState.expiresMillis, hmillis]
  exact ⟨Int.natCast_nonneg _, Int.ofNat_le.2 (of_decide_eq_true hbound)⟩

/-- A valid state is encoded, and decoded as it was encoded exactly if its expiry is one of the
encoding. -/
theorem decodeState_encodeState (h : state.valid) :
    ∃ plaintext, encodeState state = some plaintext ∧ plaintext.length = 168 ∧
      (decodeState plaintext = .ok state ↔
        0 ≤ state.expiresMillis ∧ state.expiresMillis ≤ maxSafeInteger) := by
  have hv := h
  simp only [CapabilityState.valid, Bool.and_eq_true, decide_eq_true_eq, beq_iff_eq] at hv
  obtain ⟨⟨⟨⟨⟨⟨⟨⟨⟨hholder, hutc⟩, hmilli⟩, -⟩, hepoch⟩, -⟩, htoken⟩, hkey⟩, hid⟩, -⟩ := hv
  have hsmall : maxSafeInteger < 2 ^ 64 := by decide
  obtain ⟨hlen, hA, hB, hE, hP, hF, hT⟩ := slices_append (length_bytesOf hkey)
    (length_bytesOf hholder) (E := putUint64 (state.expiresMillis % 2 ^ 64).toNat)
    (P := putUint64 state.epoch) (F := putUint64 state.fencingToken) rfl rfl rfl hid rfl
  refine ⟨_, if_pos h, hlen, expiresMillis_of_decodeState, fun ⟨hlow, hhigh⟩ => ?_⟩
  have hexpires : (state.expiresMillis % 2 ^ 64).toNat = state.expiresMillis.toNat := by omega
  have hnano : ((state.expiresMillis.toNat : Int) * millisecond) = state.expiresAt.unixNano := by
    rw [Int.toNat_of_nonneg hlow]
    exact Int.ediv_mul_cancel_of_emod_eq_zero hmilli
  have hstate : (⟨state.key, state.holder, ⟨state.expiresMillis.toNat * millisecond, true⟩,
      state.epoch, state.fencingToken, state.tokenID⟩ : CapabilityState) = state := by
    rw [hnano, ← hutc]
  refine ensure_bind.2 ⟨beq_iff_eq.2 hlen, ?_⟩
  simp only [hA, hB, hE, hP, hF, hT, textOf_bytesOf hkey, textOf_bytesOf hholder]
  rw [hexpires, uint64_putUint64 (n := state.expiresMillis.toNat) (by omega),
    uint64_putUint64 (n := state.epoch) (by omega),
    uint64_putUint64 (n := state.fencingToken) (by omega), hstate]
  exact ensure_bind.2 ⟨decide_eq_true (by omega), ensure_bind.2 ⟨h, rfl⟩⟩

/-- An identifier has identifier characters only. -/
theorem not_mem_of_validIdentifier (h : validIdentifier value) {c : Char}
    (hc : identifierChar c = false) : c ∉ value.toList := by
  intro hmem
  simp only [validIdentifier, Bool.and_eq_true] at h
  rw [List.all_eq_true.1 h.2 c hmem] at hc
  cases hc

/-- The texts of bytes have no dots. -/
theorem not_mem_encode (bytes : List UInt8) : '.' ∉ Base64.encode bytes := by
  intro h
  have hmem := Base64.mem_alphabet_of_mem_encode h
  revert hmem
  decide

/-- The associated data determines the identity. -/
theorem capabilityAAD_inj {identity identity' : Identity} {keyID : String}
    (hid : validIdentifier keyID)
    (h : capabilityAAD identity keyID = capabilityAAD identity' keyID) :
    identity.tenant = identity'.tenant ∧ identity.principal = identity'.principal := by
  have hlines : ∀ identity : Identity, List.splitOn '\n' (capabilityAAD identity keyID).toList =
      [aadHeader.toList, keyID.toList, identity.tenant.toList, identity.principal.toList] := by
    intro identity
    have hvalid := identity.valid
    rw [Bool.and_eq_true] at hvalid
    have hjoin : (capabilityAAD identity keyID).toList = ['\n'].intercalate
        [aadHeader.toList, keyID.toList, identity.tenant.toList, identity.principal.toList] := by
      simp [capabilityAAD, List.intercalate, List.intersperse]
    rw [hjoin, List.splitOn_intercalate _ _ (List.cons_ne_nil _ _)]
    simp only [List.forall_mem_cons, List.not_mem_nil, false_imp_iff, implies_true, and_true]
    exact ⟨by decide, not_mem_of_validIdentifier hid rfl, not_mem_of_validIdentifier hvalid.1 rfl,
      not_mem_of_validIdentifier hvalid.2 rfl⟩
  have heq := (hlines identity).symm.trans ((congrArg _ (congrArg _ h)).trans (hlines identity'))
  simpa [String.toList_inj] using heq

end

section
variable {aead : AEAD} {keys : SealingKeyProvider} {key : SealingKey} {nonce plaintext : List UInt8}
  {identity : Identity} {state : CapabilityState}

/-- What `Seal` returns: four texts joined by dots. -/
theorem sealState_eq (hactive : keys.active = some key)
    (hplain : encodeState state = some plaintext) :
    sealState aead keys nonce identity state = .ok (.ofList (['.'].intercalate
      ["v1".toList, key.id.toList, Base64.encode nonce, Base64.encode (aead.sealWith key.bytes nonce
        plaintext (capabilityAAD identity key.id))])) := by
  refine required_bind.2 ⟨key, hactive, required_bind.2 ⟨plaintext, hplain, ?_⟩⟩
  refine congrArg Except.ok (String.toList_inj.1 ?_)
  simp [encodeToString, List.intercalate, List.intersperse]

/-- `Open` of what was sealed under a key without a dot comes to the cipher. -/
theorem openState_eq (hopen : keys.openKey key.id = some key) (hdot : '.' ∉ key.id.toList)
    (hnonce : nonce.length = 12) (hlen : plaintext.length = 168) (other : Identity) :
    openState aead keys other (.ofList (['.'].intercalate
      ["v1".toList, key.id.toList, Base64.encode nonce, Base64.encode (aead.sealWith key.bytes nonce
        plaintext (capabilityAAD identity key.id))])) =
      (required (aead.openWith key.bytes nonce (aead.sealWith key.bytes nonce plaintext
        (capabilityAAD identity key.id)) (capabilityAAD other key.id)) .conflict >>=
          decodeState) := by
  have hvalid := key.valid
  rw [Bool.and_eq_true] at hvalid
  have hdots : ∀ part ∈ ["v1".toList, key.id.toList, Base64.encode nonce, Base64.encode
      (aead.sealWith key.bytes nonce plaintext (capabilityAAD identity key.id))], '.' ∉ part := by
    simp only [List.forall_mem_cons, List.not_mem_nil, false_imp_iff, implies_true, and_true]
    exact ⟨by decide, hdot, not_mem_encode _, not_mem_encode _⟩
  rw [openState, String.toList_ofList, List.splitOn_intercalate _ hdots (List.cons_ne_nil _ _)]
  simp only [String.ofList_toList, hvalid.1, hopen, Option.filter_some, Base64.decodeLines_encode,
    beq_self_eq_true, Bool.and_self, if_true]
  change (ensure (nonce.length == 12 && (aead.sealWith _ _ _ _).length == 168 + 16)
    Error.conflict >>= fun _ => _) = _
  rw [hnonce, aead.length_seal, hlen]
  rfl

/-- `Open` refuses what was sealed under a key with a dot: there are five parts at least. -/
theorem openState_dotted (hdot : '.' ∈ key.id.toList) (nonceText cipherText : List Char) :
    openState aead keys identity (.ofList (['.'].intercalate
      ["v1".toList, key.id.toList, nonceText, cipherText])) = .error .conflict := by
  obtain ⟨front, back, hid⟩ := List.append_of_mem hdot
  have hparts : (List.splitOn '.' (['.'].intercalate
      ["v1".toList, key.id.toList, nonceText, cipherText])).length ≠ 4 := by
    have hjoin : ['.'].intercalate ["v1".toList, key.id.toList, nonceText, cipherText] =
        "v1".toList ++ '.' ::
          (front ++ '.' :: (back ++ '.' :: (nonceText ++ '.' :: cipherText))) := by
      simp [hid, List.intercalate, List.intersperse]
    have hsplit (xs ys : List Char) : List.splitOn '.' (xs ++ '.' :: ys) =
        List.splitOn '.' xs ++ List.splitOn '.' ys :=
      List.splitOnP_append_cons xs ys (beq_self_eq_true '.')
    have hpos (part : List Char) : 0 < (List.splitOn '.' part).length :=
      List.length_pos_iff.2 (List.splitOnP_ne_nil _ _)
    have hfront := hpos front
    have hback := hpos back
    have hnonce := hpos nonceText
    have hcipher := hpos cipherText
    have hversion := hpos "v1".toList
    simp only [hjoin, hsplit, List.length_append]
    omega
  rw [openState, String.toList_ofList]
  split
  · next heq => exact absurd (congrArg List.length heq) hparts
  · rfl

/-- **A sealed state is opened by its owner only**, exactly if the identifier of the key has no dot
and the state does not expire before the Unix epoch or after the last safe millisecond. `Seal`
succeeds for every valid state. -/
theorem open_seal (hactive : keys.active = some key) (hopen : keys.openKey key.id = some key)
    (hstate : state.valid = true) (hnonce : nonce.length = 12)
    (hauthentic : ∀ plaintext, encodeState state = some plaintext →
      aead.Authenticates key.bytes nonce plaintext (capabilityAAD identity key.id)) :
    ∃ capability, sealState aead keys nonce identity state = .ok capability ∧
      ((openState aead keys identity capability = .ok state ∧ ∀ other : Identity,
            (other.tenant, other.principal) ≠ (identity.tenant, identity.principal) →
              openState aead keys other capability = .error .conflict) ↔
        '.' ∉ key.id.toList ∧ 0 ≤ state.expiresMillis ∧ state.expiresMillis ≤ maxSafeInteger) := by
  obtain ⟨plaintext, hplain, hlen, hdecode⟩ := decodeState_encodeState hstate
  have hvalid := key.valid
  rw [Bool.and_eq_true] at hvalid
  refine ⟨_, sealState_eq hactive hplain, ?_⟩
  by_cases hdot : '.' ∈ key.id.toList
  · refine iff_of_false (fun ⟨hopened, _⟩ => ?_) fun h => h.1 hdot
    rw [openState_dotted hdot] at hopened
    cases hopened
  · simp only [openState_eq hopen hdot hnonce hlen, aead.open_seal]
    refine ⟨fun h => ⟨hdot, hdecode.1 h.1⟩, fun h => ⟨hdecode.2 h.2, fun other hother => ?_⟩⟩
    have haad : capabilityAAD other key.id ≠ capabilityAAD identity key.id := by
      intro heq
      obtain ⟨htenant, hprincipal⟩ := capabilityAAD_inj hvalid.1 heq
      exact hother (by rw [htenant, hprincipal])
    rw [hauthentic plaintext hplain _ haad]
    rfl

end

/-! ## A sealed state -/

/-- The tag of a cipher that knows one text of associated data. -/
def sampleTag (known aad : String) : List UInt8 := List.replicate 16 (if aad = known then 1 else 0)

/-- A cipher that tags what it seals. -/
def sampleAEAD (known : String) : AEAD where
  sealWith _ _ plaintext aad := plaintext ++ sampleTag known aad
  openWith _ _ ciphertext aad :=
    if ciphertext.drop (ciphertext.length - 16) = sampleTag known aad then
      some (ciphertext.take (ciphertext.length - 16)) else none
  open_seal key nonce plaintext aad := by simp [sampleTag]
  length_seal key nonce plaintext aad := by simp [sampleTag]

/-- The sample cipher authenticates the associated data that it knows. -/
theorem sampleAEAD_authenticates (key nonce plaintext : List UInt8) (known : String) :
    (sampleAEAD known).Authenticates key nonce plaintext known := by
  intro aad haad
  simp [sampleAEAD, sampleTag, haad]

/-- A key with an identifier. -/
def sampleKey (id : String) (h : validIdentifier id = true) : SealingKey :=
  ⟨id, List.replicate 32 0, by simp [h]⟩

/-- A state that expires at the Unix epoch. -/
def sampleState : CapabilityState :=
  ⟨Coordination.sampleDigest, Coordination.sampleDigest, ⟨0, true⟩, 1, 1, List.replicate 16 1⟩

/-- A provider of one key. -/
def sampleKeys (key : SealingKey) : SealingKeyProvider := ⟨some key, fun _ => some key⟩

/-- The identity that it is sealed for. -/
def sampleIdentity : Identity := ⟨"t", "p", rfl⟩

/-- A state is opened by its owner under a key without a dot. -/
theorem open_seal_sample : ∃ capability,
    sealState (sampleAEAD (capabilityAAD sampleIdentity "k")) (sampleKeys (sampleKey "k" rfl))
      (List.replicate 12 0) sampleIdentity sampleState = .ok capability ∧
    openState (sampleAEAD (capabilityAAD sampleIdentity "k")) (sampleKeys (sampleKey "k" rfl))
      sampleIdentity capability = .ok sampleState := by
  obtain ⟨capability, hseal, hopen⟩ := @open_seal (sampleAEAD (capabilityAAD sampleIdentity "k"))
    (sampleKeys (sampleKey "k" rfl)) (sampleKey "k" rfl) (List.replicate 12 0) sampleIdentity
    sampleState rfl rfl rfl List.length_replicate
    fun plaintext _ => sampleAEAD_authenticates _ _ plaintext _
  exact ⟨capability, hseal, (hopen.2 ⟨by decide, by decide, by decide⟩).1⟩

/-- What is sealed under a key whose identifier has a dot is not opened. -/
theorem open_dotted_key : ¬ ∀ (aead : AEAD) (keys : SealingKeyProvider) (key : SealingKey)
    (nonce : List UInt8) (identity : Identity) (state : CapabilityState) (capability : String),
    keys.active = some key → keys.openKey key.id = some key → state.valid = true →
      nonce.length = 12 → sealState aead keys nonce identity state = .ok capability →
      openState aead keys identity capability = .ok state := by
  intro opens
  obtain ⟨plaintext, hplain, -⟩ := @decodeState_encodeState sampleState rfl
  have hopen := opens (sampleAEAD "") (sampleKeys (sampleKey "a.b" rfl)) (sampleKey "a.b" rfl)
    (List.replicate 12 0) sampleIdentity sampleState _ rfl rfl rfl List.length_replicate
    (sealState_eq rfl hplain)
  rw [openState_dotted (by decide)] at hopen
  cases hopen

end YukhCoordination.Primitives
