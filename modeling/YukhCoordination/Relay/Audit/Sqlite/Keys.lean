import YukhCoordination.Relay.Audit.Sqlite.Verify
import Mathlib.Data.List.Induction
import Mathlib.Data.String.Basic

/-!
# The stored key statements

What `Ledger.Verify` checks of the rows of `audit_verification_key_statements`, without the order of
its loop: each row carries the statement that it names, no version of a key is stored twice, and of
two versions of a key the later follows the earlier (`KeysVerified`). The loop ends on such rows
(`foldlM_of_keysVerified`) and on no others, and it then has read the statement of each row and the
last version of each key (`KeysRead`).
-/

namespace YukhCoordination.Relay.Audit.Sqlite

open Lifecycle Coordination Transaction

/-! ## The loop over the statements -/

instance : Std.Total KeyRow.le where
  total row row' := by
    rcases lt_trichotomy row.keyID row'.keyID with h | h | h
    · exact .inl (.inl h)
    · rcases Nat.le_total row.version row'.version with hv | hv
      · exact .inl (.inr ⟨h, hv⟩)
      · exact .inr (.inr ⟨h.symm, hv⟩)
    · exact .inr (.inl h)

instance : IsTrans KeyRow KeyRow.le where
  trans row row' row'' h h' := by
    rcases h with h | ⟨h, hv⟩
    · rcases h' with h' | ⟨h', -⟩
      · exact .inl (h.trans h')
      · exact .inl (h' ▸ h)
    · rcases h' with h' | ⟨h', hv'⟩
      · exact .inl (h ▸ h')
      · exact .inr ⟨h.trans h', hv.trans hv'⟩

/-- The primary key of a row. -/
def KeyRow.key (row : KeyRow) : String × Nat := (row.keyID, row.version)

variable {row' : KeyRow} {statement : VerificationKeyStatement}

theorem KeyRow.version_le_of_le {row : KeyRow} (h : row.le row')
    (hkey : row.keyID = row'.keyID) : row.version ≤ row'.version := by
  rcases h with h | ⟨-, h⟩
  · exact absurd hkey h.ne
  · exact h

theorem follows_iff {previous : VerificationKeyStatement} :
    follows previous statement ↔ previous.version < statement.version ∧
      statement.publicKey = previous.publicKey ∧ statement.activeFrom = previous.activeFrom ∧
        previous.issuedAt.unixNano ≤ statement.issuedAt.unixNano := by
  simp only [follows, Bool.and_eq_true, decide_eq_true_eq, beq_iff_eq, Bool.not_eq_true',
    Time.before_eq_false_iff, and_assoc]

theorem follows_trans {first second third : VerificationKeyStatement} (h : follows first second)
    (h' : follows second third) : follows first third := by
  obtain ⟨hversion, hkey, hactive, hissued⟩ := follows_iff.1 h
  obtain ⟨hversion', hkey', hactive', hissued'⟩ := follows_iff.1 h'
  exact follows_iff.2 ⟨hversion.trans hversion', hkey'.trans hkey, hactive'.trans hactive,
    hissued.trans hissued'⟩

section
variable {Hash : Type} {codec : Codec Hash} {authority : Bytes}

/-- A row carries a statement that it names. -/
structure Carries (codec : Codec Hash) (authority : Bytes) (row : KeyRow)
    (statement : VerificationKeyStatement) : Prop where
  verified : verifyKeyStatement codec authority row.canonicalStatement row.authoritySignature =
    .ok statement
  keyID : statement.keyID = row.keyID
  version : statement.version = row.version

theorem Carries.unique {row : KeyRow} {statement' : VerificationKeyStatement}
    (h : Carries codec authority row statement) (h' : Carries codec authority row statement') :
    statement' = statement := Except.ok.inj (h'.verified.symm.trans h.verified)

/-- What the loop checks of the rows. -/
structure KeysVerified (codec : Codec Hash) (authority : Bytes) (rows : List KeyRow) : Prop where
  carries : ∀ row ∈ rows, ∃ statement, Carries codec authority row statement
  nodup : (rows.map KeyRow.key).Nodup
  follows : ∀ row ∈ rows, ∀ row' ∈ rows, row.keyID = row'.keyID → row.version < row'.version →
    ∀ statement statement', Carries codec authority row statement →
      Carries codec authority row' statement' → follows statement statement'

variable {rows : List KeyRow} {state : KeyState} {keyID : String}

theorem KeysVerified.distinct (h : KeysVerified codec authority rows)
    {row : KeyRow} (hr : row ∈ rows) (hr' : row' ∈ rows) (hkey : row.keyID = row'.keyID)
    (hversion : row.version = row'.version) : row = row' :=
  List.inj_on_of_nodup_map h.nodup hr hr' (Prod.ext hkey hversion)

/-- The order of the rows does not matter. -/
theorem KeysVerified.perm {rows' : List KeyRow} (h : KeysVerified codec authority rows)
    (hperm : rows'.Perm rows) : KeysVerified codec authority rows' :=
  ⟨fun row hr => h.carries row (hperm.mem_iff.1 hr), ((hperm.map _).nodup_iff).2 h.nodup,
    fun row hr row' hr' => h.follows row (hperm.mem_iff.1 hr) row' (hperm.mem_iff.1 hr')⟩

/-- What the loop reads from the rows. -/
structure KeysRead (codec : Codec Hash) (authority : Bytes) (rows : List KeyRow)
    (state : KeyState) : Prop where
  keys : ∀ keyID version, (state.keys.get? (keyID, version)).isSome ↔
    ∃ row ∈ rows, row.keyID = keyID ∧ row.version = version
  keys_carries : ∀ keyID version statement,
    state.keys.get? (keyID, version) = some statement → ∃ row ∈ rows, row.keyID = keyID ∧
      row.version = version ∧ Carries codec authority row statement
  latest : ∀ keyID, (state.latest.get? keyID).isSome ↔ ∃ row ∈ rows, row.keyID = keyID
  latest_carries : ∀ keyID statement, state.latest.get? keyID = some statement →
    ∃ row ∈ rows, row.keyID = keyID ∧ Carries codec authority row statement ∧
      ∀ row' ∈ rows, row'.keyID = keyID → row'.version ≤ row.version
  references : state.keyReferences = rows.map fun row => signingKeyReference row.keyID row.version

theorem verifyKeyRow_ok {state' : KeyState} {row : KeyRow} :
    verifyKeyRow codec authority state row = .ok state' ↔ ∃ statement,
      Carries codec authority row statement ∧
        (∀ previous, state.latest.get? row.keyID = some previous → follows previous statement) ∧
        state' = ⟨state.keys.set (row.keyID, row.version) statement,
          state.latest.set row.keyID statement,
          state.keyReferences ++ [signingKeyReference row.keyID row.version]⟩ := by
  constructor
  · intro h
    obtain ⟨statement, hverified, h⟩ := bind_ok.1 h
    obtain ⟨hnames, h⟩ := ensure_bind.1 h
    obtain ⟨hfollows, h⟩ := ensure_bind.1 h
    cases h
    rw [Bool.and_eq_true, beq_iff_eq, beq_iff_eq] at hnames
    exact ⟨statement, ⟨hverified, hnames.1, hnames.2⟩, fun previous hprevious => by
      rwa [hprevious] at hfollows, rfl⟩
  · rintro ⟨statement, hcarries, hfollows, rfl⟩
    refine bind_ok.2 ⟨statement, hcarries.verified, ensure_bind.2 ⟨?_, ?_⟩⟩
    · rw [Bool.and_eq_true, beq_iff_eq, beq_iff_eq]
      exact ⟨hcarries.keyID, hcarries.version⟩
    · refine ensure_bind.2 ⟨?_, rfl⟩
      cases hprevious : state.latest.get? row.keyID with
      | none => rfl
      | some previous => exact hfollows previous hprevious

/-- A row that comes last adds its statement to what was read. -/
theorem KeysRead.concat {row : KeyRow} (hread : KeysRead codec authority rows state)
    (hcarries : Carries codec authority row statement) (hlast : ∀ row' ∈ rows, row'.le row) :
    KeysRead codec authority (rows ++ [row])
      ⟨state.keys.set (row.keyID, row.version) statement, state.latest.set row.keyID statement,
        state.keyReferences ++ [signingKeyReference row.keyID row.version]⟩ := by
  have hmem : row ∈ rows ++ [row] := List.mem_append_right _ List.mem_cons_self
  have hleft {row' : KeyRow} (h : row' ∈ rows) : row' ∈ rows ++ [row] := List.mem_append_left _ h
  refine ⟨fun keyID version => ?_, fun keyID version found h => ?_, fun keyID => ?_,
    fun keyID found h => ?_, ?_⟩
  · rw [Dict.get?_set]
    split
    · next heq =>
      obtain ⟨rfl, rfl⟩ := Prod.mk.inj heq
      exact iff_of_true rfl ⟨row, hmem, rfl, rfl⟩
    · next hne =>
      rw [hread.keys]
      refine ⟨fun ⟨row', hr, h⟩ => ⟨row', hleft hr, h⟩, fun ⟨row', hr, hkey, hversion⟩ => ?_⟩
      rcases List.mem_append.1 hr with hr | hr
      · exact ⟨row', hr, hkey, hversion⟩
      · rw [List.mem_singleton.1 hr] at hkey hversion
        exact absurd (by rw [hkey, hversion]) hne
  · rw [Dict.get?_set] at h
    split at h
    · next heq =>
      obtain ⟨rfl, rfl⟩ := Prod.mk.inj heq
      cases h
      exact ⟨row, hmem, rfl, rfl, hcarries⟩
    · obtain ⟨row', hr, h⟩ := hread.keys_carries keyID version found h
      exact ⟨row', hleft hr, h⟩
  · rw [Dict.get?_set]
    split
    · next heq => exact iff_of_true rfl ⟨row, hmem, heq.symm⟩
    · next hne =>
      rw [hread.latest]
      refine ⟨fun ⟨row', hr, h⟩ => ⟨row', hleft hr, h⟩, fun ⟨row', hr, hkey⟩ => ?_⟩
      rcases List.mem_append.1 hr with hr | hr
      · exact ⟨row', hr, hkey⟩
      · rw [List.mem_singleton.1 hr] at hkey
        exact absurd hkey.symm hne
  · rw [Dict.get?_set] at h
    split at h
    · next heq =>
      cases h
      refine ⟨row, hmem, heq.symm, hcarries, fun row' hr hkey => ?_⟩
      rcases List.mem_append.1 hr with hr | hr
      · exact KeyRow.version_le_of_le (hlast row' hr) (hkey.trans heq)
      · rw [List.mem_singleton.1 hr]
    · next hne =>
      obtain ⟨row', hr, hkey, hcarries', hmax⟩ := hread.latest_carries keyID found h
      refine ⟨row', hleft hr, hkey, hcarries', fun row'' hr' hkey' => ?_⟩
      rcases List.mem_append.1 hr' with hr' | hr'
      · exact hmax row'' hr' hkey'
      · rw [List.mem_singleton.1 hr'] at hkey'
        exact absurd hkey'.symm hne
  · rw [hread.references, List.map_append]
    rfl

/-- The rows of a key before a row that may come next, which has a higher version. -/
theorem KeysRead.follows_of_latest (hread : KeysRead codec authority rows state)
    (hrows : KeysVerified codec authority rows) {row : KeyRow}
    (hcarries : Carries codec authority row statement)
    (hlatest : ∀ previous, state.latest.get? row.keyID = some previous →
      follows previous statement) (hr : row' ∈ rows) (hkey : row'.keyID = row.keyID)
    {statement' : VerificationKeyStatement} (hcarries' : Carries codec authority row' statement') :
    row'.version < row.version ∧ follows statement' statement := by
  obtain ⟨previous, hprevious⟩ := Option.isSome_iff_exists.1 ((hread.latest row.keyID).2
    ⟨row', hr, hkey⟩)
  obtain ⟨last, hl, hlastKey, hlast, hmax⟩ := hread.latest_carries row.keyID previous hprevious
  have hnext := hlatest previous hprevious
  have hlt := (follows_iff.1 hnext).1
  rw [hlast.version, hcarries.version] at hlt
  have hle := hmax row' hr hkey
  refine ⟨by omega, ?_⟩
  rcases Nat.lt_or_eq_of_le hle with hbefore | hsame
  · exact follows_trans (hrows.follows row' hr last hl (hkey.trans hlastKey.symm) hbefore
      statement' previous hcarries' hlast) hnext
  · obtain rfl := hrows.distinct hr hl (hkey.trans hlastKey.symm) hsame
    rwa [hlast.unique hcarries']

/-- A row that may come after the others keeps them verified. -/
theorem KeysVerified.concat (hrows : KeysVerified codec authority rows) {row : KeyRow}
    (hcarries : Carries codec authority row statement)
    (hnext : ∀ row' ∈ rows, row'.keyID = row.keyID → ∀ statement',
      Carries codec authority row' statement' →
        row'.version < row.version ∧ Sqlite.follows statement' statement) :
    KeysVerified codec authority (rows ++ [row]) := by
  refine ⟨fun row' hr => ?_, ?_, fun row' hr row'' hr' hkey hversion statement' statement'' h h' =>
    ?_⟩
  · rcases List.mem_append.1 hr with hr | hr
    · exact hrows.carries row' hr
    · rw [List.mem_singleton.1 hr]
      exact ⟨statement, hcarries⟩
  · rw [List.map_append, List.nodup_append]
    refine ⟨hrows.nodup, List.nodup_singleton _, fun key hmem key' hmem' heq => ?_⟩
    obtain ⟨row', hr, rfl⟩ := List.mem_map.1 hmem
    obtain ⟨hkey, hversion⟩ := Prod.mk.inj (heq.trans (List.mem_singleton.1 hmem'))
    obtain ⟨statement', h⟩ := hrows.carries row' hr
    exact (hnext row' hr hkey statement' h).1.ne hversion
  · rcases List.mem_append.1 hr with hm | hm <;> rcases List.mem_append.1 hr' with hm' | hm'
    · exact hrows.follows row' hm row'' hm' hkey hversion statement' statement'' h h'
    · obtain rfl := List.mem_singleton.1 hm'
      rw [hcarries.unique h']
      exact (hnext row' hm hkey statement' h).2
    · obtain rfl := List.mem_singleton.1 hm
      exact absurd hversion (hnext row'' hm' hkey.symm statement'' h').1.asymm
    · rw [List.mem_singleton.1 hm, List.mem_singleton.1 hm'] at hversion
      exact absurd hversion (Nat.lt_irrefl _)

/-- A loop over rows in their order that ends has verified and read them. -/
theorem keysRead_of_foldlM (hsorted : rows.Pairwise KeyRow.le)
    (h : rows.foldlM (verifyKeyRow codec authority) ⟨Dict.empty, Dict.empty, []⟩ = .ok state) :
    KeysVerified codec authority rows ∧ KeysRead codec authority rows state := by
  induction rows using List.reverseRecOn generalizing state with
  | nil =>
    cases h
    refine ⟨⟨fun _ h => absurd h List.not_mem_nil, List.nodup_nil,
      fun _ h => absurd h List.not_mem_nil⟩, ?_⟩
    refine ⟨fun keyID version => ?_, fun keyID version found h => (by cases h), fun keyID => ?_,
      fun keyID found h => (by cases h), rfl⟩
    · exact iff_of_false Bool.false_ne_true fun ⟨_, h, _⟩ => absurd h List.not_mem_nil
    · exact iff_of_false Bool.false_ne_true fun ⟨_, h, _⟩ => absurd h List.not_mem_nil
  | append_singleton rows row ih =>
    obtain ⟨hsorted, -, hlast⟩ := List.pairwise_append.1 hsorted
    rw [List.foldlM_append] at h
    obtain ⟨before, hbefore, h⟩ := bind_ok.1 h
    rw [List.foldlM_cons] at h
    obtain ⟨after, hafter, h⟩ := bind_ok.1 h
    cases h
    obtain ⟨hrows, hread⟩ := ih hsorted hbefore
    obtain ⟨statement, hcarries, hlatest, rfl⟩ := verifyKeyRow_ok.1 hafter
    refine ⟨hrows.concat hcarries fun row' hr hkey statement' h => ?_,
      hread.concat hcarries fun row' hr => hlast row' hr row List.mem_cons_self⟩
    exact hread.follows_of_latest hrows hcarries hlatest hr hkey h

/-- The loop ends on verified rows in their order. -/
theorem foldlM_of_keysVerified (hsorted : rows.Pairwise KeyRow.le)
    (hrows : KeysVerified codec authority rows) : ∃ state,
      rows.foldlM (verifyKeyRow codec authority) ⟨Dict.empty, Dict.empty, []⟩ = .ok state := by
  induction rows using List.reverseRecOn with
  | nil => exact ⟨_, rfl⟩
  | append_singleton rows row ih =>
    obtain ⟨hsorted, -, hlast⟩ := List.pairwise_append.1 hsorted
    have hleft {row' : KeyRow} (h : row' ∈ rows) : row' ∈ rows ++ [row] := List.mem_append_left _ h
    have hmem : row ∈ rows ++ [row] := List.mem_append_right _ List.mem_cons_self
    have hnodup := hrows.nodup
    rw [List.map_append, List.nodup_append] at hnodup
    have hrows' : KeysVerified codec authority rows :=
      ⟨fun row' hr => hrows.carries row' (hleft hr), hnodup.1,
        fun row' hr row'' hr' => hrows.follows row' (hleft hr) row'' (hleft hr')⟩
    obtain ⟨state, hstate⟩ := ih hsorted hrows'
    obtain ⟨-, hread⟩ := keysRead_of_foldlM hsorted hstate
    obtain ⟨statement, hcarries⟩ := hrows.carries row hmem
    have hfollows (previous : VerificationKeyStatement)
        (h : state.latest.get? row.keyID = some previous) : follows previous statement = true := by
      obtain ⟨row', hr, hkey, hcarries', -⟩ := hread.latest_carries row.keyID previous h
      have hle := KeyRow.version_le_of_le (hlast row' hr row List.mem_cons_self) hkey
      have hne : row'.version ≠ row.version := fun hversion =>
        hnodup.2.2 _ (List.mem_map_of_mem hr) _ List.mem_cons_self (Prod.ext hkey hversion)
      exact hrows.follows row' (hleft hr) row hmem hkey (by omega) previous statement hcarries'
        hcarries
    have hrow := verifyKeyRow_ok.2 ⟨statement, hcarries, hfollows, rfl⟩
    rw [List.foldlM_append]
    exact ⟨_, bind_ok.2 ⟨state, hstate, bind_ok.2 ⟨_, hrow, rfl⟩⟩⟩

/-- The loop of the verification verifies and reads the stored rows. -/
theorem keysRead_of_verifyKeys {db : Db Hash} {keys : KeyState}
    (h : verifyKeys codec authority db = .ok keys) :
    KeysVerified codec authority db.keyStatements ∧
      KeysRead codec authority db.orderedKeys keys := by
  have hsorted : db.orderedKeys.Pairwise KeyRow.le := List.pairwise_insertionSort KeyRow.le _
  obtain ⟨hverified, hread⟩ := keysRead_of_foldlM hsorted h
  exact ⟨hverified.perm (List.perm_insertionSort _ _).symm, hread⟩

/-! ## The last version of a key -/

theorem latestRow_some {db : Db Hash} {row : KeyRow}
    (h : db.latestRow keyID = some row) : row ∈ db.keyStatements ∧ row.keyID = keyID ∧
      ∀ row' ∈ db.keyStatements, row'.keyID = keyID → row'.version ≤ row.version := by
  have : Std.Total fun row row' : KeyRow => row'.version ≤ row.version :=
    ⟨fun row row' => Nat.le_total row'.version row.version⟩
  have : IsTrans KeyRow fun row row' => row'.version ≤ row.version := ⟨fun _ _ _ h h' => h'.trans h⟩
  have hsorted := List.pairwise_insertionSort (fun row row' : KeyRow => row'.version ≤ row.version)
    (db.keyStatements.filter (·.keyID == keyID))
  have hmem (row' : KeyRow) : row' ∈ (db.keyStatements.filter (·.keyID == keyID)).insertionSort
      (fun row row' => row'.version ≤ row.version) ↔
        row' ∈ db.keyStatements ∧ row'.keyID = keyID := by
    rw [List.mem_insertionSort, List.mem_filter, beq_iff_eq]
  obtain ⟨rest, hrest⟩ := List.head?_eq_some_iff.1 h
  rw [hrest] at hsorted hmem
  obtain ⟨hrow, hkey⟩ := (hmem row).1 List.mem_cons_self
  refine ⟨hrow, hkey, fun row' hr hkey' => ?_⟩
  rcases List.mem_cons.1 ((hmem row').2 ⟨hr, hkey'⟩) with rfl | hr
  · exact le_rfl
  · exact List.rel_of_pairwise_cons hsorted hr

theorem latestRow_none {db : Db Hash} (h : db.latestRow keyID = none) :
    ∀ row ∈ db.keyStatements, row.keyID ≠ keyID := by
  intro row hr hkey
  have hmem : row ∈ (db.keyStatements.filter (·.keyID == keyID)).insertionSort
      (fun row row' => row'.version ≤ row.version) := by
    rw [List.mem_insertionSort, List.mem_filter, beq_iff_eq]
    exact ⟨hr, hkey⟩
  rw [Db.latestRow, List.head?_eq_none_iff] at h
  rw [h] at hmem
  exact absurd hmem List.not_mem_nil

variable {db db' : Db Hash} {row : KeyRow}

/-- A row with a higher version than those of its key is the last version of the key. -/
theorem latestRow_concat_self (hrows : db'.keyStatements = db.keyStatements ++ [row])
    (hnew : ∀ row' ∈ db.keyStatements, row'.keyID = row.keyID → row'.version < row.version) :
    db'.latestRow row.keyID = some row := by
  have hmem : row ∈ db'.keyStatements := by rw [hrows]; simp
  cases hlatest : db'.latestRow row.keyID with
  | none => exact absurd rfl (latestRow_none hlatest row hmem)
  | some last =>
    obtain ⟨hl, hkey, hmax⟩ := latestRow_some hlatest
    rw [hrows] at hl
    rcases List.mem_append.1 hl with hl | hl
    · exact absurd (hnew last hl hkey) (hmax row hmem rfl).not_gt
    · rw [List.mem_singleton.1 hl]

theorem latestRow_concat_of_ne (hrows : db'.keyStatements = db.keyStatements ++ [row])
    (hne : keyID ≠ row.keyID) : db'.latestRow keyID = db.latestRow keyID := by
  have hfilter : [row].filter (·.keyID == keyID) = [] := by simpa using hne.symm
  rw [Db.latestRow, hrows, List.filter_append, hfilter, List.append_nil, ← Db.latestRow]

/-! ## References of keys -/

/-- The digits of a version end before the colon, read from the end. -/
theorem takeWhile_reference (keyID : String) (version : Nat) :
    (signingKeyReference keyID version).toList.reverse.takeWhile (· != ':') =
      (toString version).toList.reverse := by
  have hdigits : ∀ c ∈ (toString version).toList.reverse, (c != ':') = true := by
    intro c hc
    rw [List.mem_reverse, Nat.toString_eq_repr, Nat.toList_repr] at hc
    have hdigit := isDigit_of_mem_toDigits hc
    rw [bne_iff_ne]
    rintro rfl
    exact absurd hdigit (by decide)
  have hgeneral (start : String) : (start ++ ":" ++ toString version).toList.reverse.takeWhile
      (· != ':') = (toString version).toList.reverse := by
    have hcolon : ":".toList = [':'] := rfl
    simp only [String.toList_append, List.reverse_append, hcolon,
      List.takeWhile_append_of_pos hdigits]
    simp
  exact hgeneral _

/-- A reference names one version of one key. -/
theorem signingKeyReference_inj {keyID' : String} {version version' : Nat}
    (h : signingKeyReference keyID version = signingKeyReference keyID' version') :
    keyID = keyID' ∧ version = version' := by
  have hversion := takeWhile_reference keyID version
  rw [h, takeWhile_reference, List.reverse_inj] at hversion
  have hsame : version = version' :=
    Option.some.inj ((digits_toString version).symm.trans (hversion ▸ digits_toString version'))
  refine ⟨?_, hsame⟩
  have hcancel (start colon digits : String)
      (h : start ++ keyID ++ colon ++ digits = start ++ keyID' ++ colon ++ digits) :
      keyID = keyID' := by
    have hlist := congrArg String.toList h
    simpa only [String.toList_append, List.append_cancel_right_eq, List.append_cancel_left_eq,
      String.toList_inj] using hlist
  subst hsame
  exact hcancel _ _ _ h

end

end YukhCoordination.Relay.Audit.Sqlite
