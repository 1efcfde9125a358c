/-
`corpus/source/lock.rs` and `corpus/source/lock/validate.rs` -- the canonical inventory
of the effective source heads, and the gates of a committed one.

A committed lock passes three gates: the strict parser, the comparison of its bytes with
the canonical rendering of what was parsed, and the comparison of the parsed entries with
those derived from the graph. The `toml` crate is the class `LockToml`.

The first gate rejects a schema version that is too new and lets an older one pass, the
second renders the version that was parsed, and the third compares the entries alone. So
the lock of version 0 passes all three: the accepted files are the renderings of the
derived entries under either version (`validate_committed_lock_ok_iff`), and acceptance
means that the file is the rendering of the derived lock unless it is that of version 0
(`committed_lock_iff`).
-/
import Evidence.Bundle.Signing
import Evidence.Corpus.Graph.Validate
import Evidence.Corpus.Source.Lineage
import Evidence.Corpus.SourceGraph.Render

set_option autoImplicit false

namespace Evidence.Corpus

open Evidence.Bundle Check Sorting

/-! ## The lock -/

/-- Highest sources-lock schema version this tool loads. -/
def SUPPORTED_LOCK_SCHEMA : UInt32 := 1

structure ExternalControlId where
  system : String
  immutable_id : String
deriving DecidableEq

inductive LockCapture where
  | Vendored
  | HashOnly
  | ExternalControlled (external : ExternalControlId)
deriving DecidableEq

/-- The canonical `capture_mode` wire string. -/
def LockCapture.as_str : LockCapture → String
  | .Vendored => "vendored"
  | .HashOnly => "hash_only"
  | .ExternalControlled _ => "external_controlled"

def external_control : LockCapture → Option ExternalControlId
  | .ExternalControlled external => some external
  | _ => none

inductive LockMaterial where
  | Available (sha256 : SourceContentDigest) (capture : LockCapture)
  | Unavailable
deriving DecidableEq

structure SourceLockEntry where
  document_key : String
  source_uid : String
  material : LockMaterial
deriving DecidableEq

structure SourceLock where
  schema_version : UInt32
  entries : List SourceLockEntry
deriving DecidableEq

/-- The lock's capture mode of a captured source: the vendored path is left out. -/
def capture_from_revision : SourceCapture → LockCapture
  | .Vendored _ => .Vendored
  | .HashOnly => .HashOnly
  | .ExternalControlled system immutable_id =>
    .ExternalControlled { system := system, immutable_id := immutable_id }

/-- Project one effective head revision into its lock entry. -/
def entry_from_revision (document_key uid : String) (revision : SourceRevisionNode) :
    SourceLockEntry where
  document_key := document_key
  source_uid := uid
  material :=
    match revision.material with
    | .Available _ sha256 capture => .Available sha256 (capture_from_revision capture)
    | .Unavailable _ => .Unavailable

/-- The canonical entry order: `document_key`, then `source_uid`. -/
def entry_cmp : SourceLockEntry → SourceLockEntry → Ordering :=
  compareLex (compareOn SourceLockEntry.document_key) (compareOn SourceLockEntry.source_uid)

instance : Std.TransCmp entry_cmp :=
  inferInstanceAs (Std.TransCmp (compareLex (compareOn SourceLockEntry.document_key)
    (compareOn SourceLockEntry.source_uid)))

/-- Sort into the canonical entry order. -/
def sort_entries (entries : List SourceLockEntry) : List SourceLockEntry :=
  sortBy entry_cmp entries

def derive_entry (graph : CorpusGraph) (head : String × String) : Option SourceLockEntry :=
  match graph.get head.2 with
  | some (.SourceRevision revision) => some (entry_from_revision head.1 head.2 revision)
  | _ => none

/-- Project the lock of `graph` from its effective source heads. -/
def derive_lock (graph : CorpusGraph) : SourceLock where
  schema_version := SUPPORTED_LOCK_SCHEMA
  entries := sort_entries ((effective_source_heads graph).values.filterMap (derive_entry graph))

/-! ## The canonical rendering -/

def push_material : LockMaterial → List Char
  | .Available sha256 capture =>
    push_field "availability" "available" ++ push_field "sha256" sha256.as_str ++
      push_field "capture_mode" capture.as_str ++
      match capture with
      | .ExternalControlled external =>
        text "external_control = \x7b system = " ++ push_basic_string external.system ++
          text ", immutable_id = " ++ push_basic_string external.immutable_id ++ text " \x7d\n"
      | _ => []
  | .Unavailable => push_field "availability" "unavailable"

/-- One entry's block. -/
def push_entry (entry : SourceLockEntry) : List Char :=
  text "\n[[entries]]\n" ++ push_field "document_key" entry.document_key ++
    push_field "source_uid" entry.source_uid ++ push_material entry.material

def lock_text (lock : SourceLock) : String :=
  String.ofList (text "schema_version = " ++ push_decimal lock.schema_version.toNat ++ ['\n'] ++
    (sort_entries lock.entries).flatMap push_entry)

/-- Render `lock` in the canonical v1 byte form. -/
def render_lock_canonical (lock : SourceLock) : List UInt8 := str_bytes (lock_text lock)

/-! ## Errors -/

/-- Why committed bytes do not parse: the parser's own error, or one that this layer
authors. -/
inductive LockParseError where
  | toml
  | authored (message : String)
deriving DecidableEq

/-- Errors from parsing and validating a committed lock. -/
inductive SourceLockError where
  | Parse (source : LockParseError)
  | SchemaTooNew (found supported : UInt32)
  | DuplicateKey (document_key : String)
  | NonCanonical (detail : String)
  | Missing (document_key : String)
  | Extra (document_key : String)
  | Changed (document_key field : String)
  | InvalidGraph (source : CorpusError)
deriving DecidableEq

/-! ## Gate 1: the strict parser -/

inductive LockCaptureMode where
  | Vendored
  | HashOnly
  | ExternalControlled
deriving DecidableEq

inductive EntryWire where
  | Available (document_key source_uid : String) (sha256 : SourceContentDigest)
      (capture_mode : LockCaptureMode) (external_control : Option ExternalControlId)
  | Unavailable (document_key source_uid : String)
deriving DecidableEq

def EntryWire.document_key : EntryWire → String
  | .Available document_key _ _ _ _ => document_key
  | .Unavailable document_key _ => document_key

/-- On-disk shape of a lock file. -/
structure LockFileWire where
  schema_version : UInt32
  entries : List EntryWire
deriving DecidableEq

/-- The `toml` crate's strict parser at the wire type. -/
class LockToml where
  /-- `toml::from_str`. -/
  parse_wire : String → Option LockFileWire

export LockToml (parse_wire)

def entry_from_wire : EntryWire → Except SourceLockError SourceLockEntry
  | .Available document_key source_uid sha256 capture_mode external_control =>
    match capture_mode, external_control with
    | .Vendored, none => .ok ⟨document_key, source_uid, .Available sha256 .Vendored⟩
    | .HashOnly, none => .ok ⟨document_key, source_uid, .Available sha256 .HashOnly⟩
    | .ExternalControlled, some external =>
      .ok ⟨document_key, source_uid, .Available sha256 (.ExternalControlled external)⟩
    | _, _ =>
      .error (.Parse (.authored
        "external_control is required iff capture_mode is \"external_controlled\""))
  | .Unavailable document_key source_uid => .ok ⟨document_key, source_uid, .Unavailable⟩

/-- One step of the loop over the wire entries: the keys seen, and the entries so far. -/
def parse_entry (state : List String × List SourceLockEntry) (wire : EntryWire) :
    Except SourceLockError (List String × List SourceLockEntry) := do
  failIf (wire.document_key ∈ state.1) (.DuplicateKey wire.document_key)
  let entry ← entry_from_wire wire
  .ok (wire.document_key :: state.1, state.2 ++ [entry])

def parse_lock [LockToml] (bytes : List UInt8) : Except SourceLockError SourceLock :=
  match from_utf8 bytes with
  | none => .error (.Parse (.authored "sources.lock bytes are not valid UTF-8"))
  | some text =>
    match parse_wire text with
    | none => .error (.Parse .toml)
    | some wire => do
      failIf (SUPPORTED_LOCK_SCHEMA < wire.schema_version)
        (.SchemaTooNew wire.schema_version SUPPORTED_LOCK_SCHEMA)
      let parsed ← wire.entries.foldlM parse_entry ([], [])
      .ok { schema_version := wire.schema_version, entries := parsed.2 }

/-! ## Gate 2: canonical bytes -/

/-- `{:02X}` of a byte. -/
def upper_hex2 (b : UInt8) : String :=
  String.ofList [upper_hex_digit (b.toNat / 16), upper_hex_digit (b.toNat % 16)]

def first_difference (committed canonical : List UInt8) : String :=
  match (committed.zip canonical).zipIdx.find? fun at_index => at_index.1.1 != at_index.1.2 with
  | some ((left, right), index) =>
    "first difference at byte " ++ decimal index ++ ": committed byte 0x" ++ upper_hex2 left ++
      ", canonical byte 0x" ++ upper_hex2 right
  | none =>
    "length differs: committed is " ++ decimal committed.length ++
      " bytes, the canonical rendering is " ++ decimal canonical.length ++ " bytes"

/-! ## Gate 3: the inventories -/

def by_document_key (lock : SourceLock) : Store SourceLockEntry.document_key :=
  Store.ofList lock.entries

/-- The first differing bound field between two entries of one document key. -/
def first_changed_field (derived committed : SourceLockEntry) : Option String :=
  if committed.source_uid ≠ derived.source_uid then some "uid"
  else
    match derived.material, committed.material with
    | .Unavailable, .Unavailable => none
    | .Available _ _, .Unavailable => some "availability"
    | .Unavailable, .Available _ _ => some "availability"
    | .Available derived_sha256 derived_capture, .Available committed_sha256 committed_capture =>
      if committed_sha256 ≠ derived_sha256 then some "digest"
      else if committed_capture.as_str ≠ derived_capture.as_str then some "capture_mode"
      else if external_control committed_capture ≠ external_control derived_capture then
        some "external_identity"
      else none

/-- One derived entry against the committed one of its key, which an earlier loop found. -/
def check_changed (committed : Store SourceLockEntry.document_key) (derived : SourceLockEntry) :
    Except SourceLockError Unit :=
  match (committed.get derived.document_key).bind (first_changed_field derived) with
  | some field => .error (.Changed derived.document_key field)
  | none => .ok ()

/-- Compare the derived inventory with the committed one in sorted document-key order. -/
def diff_inventories (derived committed : SourceLock) : Except SourceLockError Unit := do
  let derived_by_key := by_document_key derived
  let committed_by_key := by_document_key committed
  derived_by_key.values.forM fun entry =>
    failIf ((committed_by_key.get entry.document_key).isNone = true) (.Missing entry.document_key)
  committed_by_key.values.forM fun entry =>
    failIf ((derived_by_key.get entry.document_key).isNone = true) (.Extra entry.document_key)
  derived_by_key.values.forM (check_changed committed_by_key)

/-- Validate committed `sources.lock` bytes against `graph` through the three ordered
gates. -/
def validate_committed_lock [Sha256] [F64Display] [LockToml] (bytes : List UInt8)
    (graph : CorpusGraph) : Except SourceLockError Unit := do
  graph.validate.mapError .InvalidGraph
  let committed ← parse_lock bytes
  let canonical := render_lock_canonical committed
  failIf (canonical ≠ bytes) (.NonCanonical (first_difference bytes canonical))
  diff_inventories (derive_lock graph) committed

/-! ## What the parser gives -/

/-- The wire value that an entry's block denotes. -/
def SourceLockEntry.wire (entry : SourceLockEntry) : EntryWire :=
  match entry.material with
  | .Available sha256 .Vendored =>
    .Available entry.document_key entry.source_uid sha256 .Vendored none
  | .Available sha256 .HashOnly =>
    .Available entry.document_key entry.source_uid sha256 .HashOnly none
  | .Available sha256 (.ExternalControlled external) =>
    .Available entry.document_key entry.source_uid sha256 .ExternalControlled (some external)
  | .Unavailable => .Unavailable entry.document_key entry.source_uid

/-- The wire value that a lock's canonical text denotes. -/
def SourceLock.wire (lock : SourceLock) : LockFileWire where
  schema_version := lock.schema_version
  entries := (sort_entries lock.entries).map SourceLockEntry.wire

theorem entry_from_wire_wire (entry : SourceLockEntry) :
    entry.wire.document_key = entry.document_key ∧ entry_from_wire entry.wire = .ok entry := by
  obtain ⟨document_key, source_uid, material⟩ := entry
  cases material with
  | Unavailable => exact ⟨rfl, rfl⟩
  | Available sha256 capture => cases capture <;> exact ⟨rfl, rfl⟩

theorem entry_from_wire_key {wire : EntryWire} {entry : SourceLockEntry}
    (h : entry_from_wire wire = .ok entry) : wire.document_key = entry.document_key := by
  unfold entry_from_wire at h
  split at h
  · split at h <;> first | cases h; rfl | cases h
  · cases h
    rfl

structure ParsedDistinct (state : List String × List SourceLockEntry) : Prop where
  seen : ∀ document_key, document_key ∈ state.1 ↔
    document_key ∈ state.2.map SourceLockEntry.document_key
  nodup : (state.2.map SourceLockEntry.document_key).Nodup

/-- One step keeps the keys distinct. -/
theorem parse_entry_distinct {state state' : List String × List SourceLockEntry}
    {wire : EntryWire} (hstate : ParsedDistinct state) (h : parse_entry state wire = .ok state') :
    ParsedDistinct state' := by
  obtain ⟨hnew, h⟩ := seq_ok_iff.mp h
  obtain ⟨entry, hentry, h⟩ := bind_ok_iff.mp h
  have hkey := entry_from_wire_key hentry
  rw [failIf_ok_iff, hkey, hstate.seen] at hnew
  rw [← Except.ok.inj h]
  constructor
  · intro document_key
    rw [List.mem_cons, hstate.seen, List.map_append, List.mem_append, List.map_singleton,
      List.mem_singleton, hkey]
    exact or_comm
  · rw [List.map_append, List.map_singleton]
    refine List.nodup_append.mpr ⟨hstate.nodup, List.nodup_singleton _, ?_⟩
    intro document_key hmem other hother heq
    rw [List.mem_singleton.mp hother] at heq
    exact hnew (heq ▸ hmem)

theorem parse_entries_wire {entries : List SourceLockEntry} (seen : List String)
    (before : List SourceLockEntry)
    (hnew : ∀ entry ∈ entries, entry.document_key ∉ seen)
    (hnodup : (entries.map SourceLockEntry.document_key).Nodup) :
    ∃ seen', (entries.map SourceLockEntry.wire).foldlM parse_entry (seen, before) =
      .ok (seen', before ++ entries) := by
  induction entries generalizing seen before with
  | nil =>
    refine ⟨seen, ?_⟩
    rw [List.append_nil]
    rfl
  | cons entry entries ih =>
    obtain ⟨hkey, hconvert⟩ := entry_from_wire_wire entry
    rw [List.map_cons, List.nodup_cons] at hnodup
    have hstep : parse_entry (seen, before) entry.wire =
        .ok (entry.document_key :: seen, before ++ [entry]) := by
      refine seq_ok_iff.mpr ⟨failIf_ok_iff.mpr ?_, bind_ok_iff.mpr ⟨entry, hconvert, ?_⟩⟩
      · rw [hkey]
        exact hnew entry List.mem_cons_self
      · rw [hkey]
    obtain ⟨seen', hrest⟩ := ih (entry.document_key :: seen) (before ++ [entry])
      (by
        intro other hother hmem
        rcases List.mem_cons.mp hmem with heq | hseen
        · exact hnodup.1 (List.mem_map.mpr ⟨other, hother, heq⟩)
        · exact hnew other (List.mem_cons_of_mem _ hother) hseen)
      hnodup.2
    refine ⟨seen', ?_⟩
    rw [List.map_cons, List.foldlM_cons, hstep]
    rw [List.append_assoc, List.singleton_append] at hrest
    exact hrest

/-- **What the first gate accepts** has a supported version and distinct document keys. -/
theorem parse_lock_ok [LockToml] {bytes : List UInt8} {lock : SourceLock}
    (h : parse_lock bytes = .ok lock) :
    lock.schema_version ≤ SUPPORTED_LOCK_SCHEMA ∧
      (lock.entries.map SourceLockEntry.document_key).Nodup := by
  unfold parse_lock at h
  split at h
  · cases h
  · split at h
    · cases h
    · rename_i wire _
      obtain ⟨hversion, h⟩ := seq_ok_iff.mp h
      obtain ⟨parsed, hloop, h⟩ := bind_ok_iff.mp h
      have hdistinct : ParsedDistinct parsed := by
        refine Runs.invariant ParsedDistinct ?_ (foldlM_ok_iff.mp hloop) ?_
        · intro state wire state' hstate hstep
          exact parse_entry_distinct hstate hstep
        · exact ⟨fun _ => Iff.rfl, List.nodup_nil⟩
      rw [← Except.ok.inj h]
      exact ⟨UInt32.not_lt.mp (failIf_ok_iff.mp hversion), hdistinct.nodup⟩

/-! ## What the third gate compares -/

theorem first_changed_field_none_iff {derived committed : SourceLockEntry}
    (hkey : derived.document_key = committed.document_key) :
    first_changed_field derived committed = none ↔ derived = committed := by
  constructor
  · intro h
    obtain ⟨derived_key, derived_uid, derived_material⟩ := derived
    obtain ⟨committed_key, committed_uid, committed_material⟩ := committed
    cases hkey
    unfold first_changed_field at h
    split_ifs at h with huid
    have huid := not_not.mp huid
    cases huid
    cases derived_material with
    | Unavailable =>
      cases committed_material with
      | Unavailable => rfl
      | Available sha256 capture => cases h
    | Available derived_sha256 derived_capture =>
      cases committed_material with
      | Unavailable => cases h
      | Available sha256 capture =>
        simp only at h
        split_ifs at h with hsha hmode hidentity
        have hsha := not_not.mp hsha
        have hmode := not_not.mp hmode
        have hidentity := not_not.mp hidentity
        have hcapture : capture = derived_capture := by
          revert hmode hidentity
          cases capture <;> cases derived_capture <;>
            simp [LockCapture.as_str, external_control]
        rw [hsha, hcapture]
  · rintro rfl
    unfold first_changed_field
    rw [if_neg (not_not.mpr rfl)]
    cases derived.material with
    | Unavailable => rfl
    | Available sha256 capture =>
      simp only [ne_eq, not_true_eq_false, if_false]

/-- **The third gate accepts exactly the same entries.** -/
theorem diff_inventories_ok_iff {derived committed : SourceLock}
    (hderived : (derived.entries.map SourceLockEntry.document_key).Nodup)
    (hcommitted : (committed.entries.map SourceLockEntry.document_key).Nodup) :
    diff_inventories derived committed = .ok () ↔ derived.entries.Perm committed.entries := by
  have hmem : ∀ {lock : SourceLock}, (lock.entries.map SourceLockEntry.document_key).Nodup →
      ∀ entry, entry ∈ (by_document_key lock).values ↔ entry ∈ lock.entries :=
    fun hnodup entry => Store.mem_values_ofList hnodup
  have hget : ∀ {lock : SourceLock}, (lock.entries.map SourceLockEntry.document_key).Nodup →
      ∀ document_key entry, (by_document_key lock).get document_key = some entry →
        entry ∈ lock.entries ∧ entry.document_key = document_key := by
    intro lock hnodup document_key entry h
    exact ⟨(hmem hnodup entry).mp (Store.mem_values_of_get h), Store.key_of_get h⟩
  have hfound : ∀ {lock : SourceLock}, (lock.entries.map SourceLockEntry.document_key).Nodup →
      ∀ entry ∈ lock.entries, (by_document_key lock).get entry.document_key = some entry := by
    intro lock hnodup entry hentry
    exact Store.mem_values.mp ((hmem hnodup entry).mpr hentry)
  rw [diff_inventories]
  simp only [seq_ok_iff, forM_ok_iff, failIf_ok_iff, hmem hderived, hmem hcommitted]
  constructor
  · rintro ⟨hmissing, hextra, hchanged⟩
    refine (List.perm_ext_iff_of_nodup hderived.of_map hcommitted.of_map).mpr ?_
    have hsame : ∀ entry ∈ derived.entries, entry ∈ committed.entries := by
      intro entry hentry
      obtain ⟨other, hother⟩ := Option.ne_none_iff_exists'.mp fun hnone =>
        hmissing entry hentry (Option.isNone_iff_eq_none.mpr hnone)
      obtain ⟨hcom, hkey⟩ := hget hcommitted _ _ hother
      have hfield := hchanged entry hentry
      rw [check_changed, hother, Option.bind_some] at hfield
      have hnone : first_changed_field entry other = none := by
        cases hfirst : first_changed_field entry other with
        | none => rfl
        | some field =>
          rw [hfirst] at hfield
          cases hfield
      rw [(first_changed_field_none_iff hkey.symm).mp hnone]
      exact hcom
    intro entry
    constructor
    · exact hsame entry
    · intro hentry
      obtain ⟨other, hother⟩ := Option.ne_none_iff_exists'.mp fun hnone =>
        hextra entry hentry (Option.isNone_iff_eq_none.mpr hnone)
      obtain ⟨hder, hkey⟩ := hget hderived _ _ hother
      rw [← List.inj_on_of_nodup_map hcommitted (hsame other hder) hentry hkey]
      exact hder
  · intro hperm
    refine ⟨?_, ?_, ?_⟩
    · intro entry hentry hnone
      rw [hfound hcommitted entry (hperm.mem_iff.mp hentry)] at hnone
      cases hnone
    · intro entry hentry hnone
      rw [hfound hderived entry (hperm.mem_iff.mpr hentry)] at hnone
      cases hnone
    · intro entry hentry
      rw [check_changed, hfound hcommitted entry (hperm.mem_iff.mp hentry), Option.bind_some,
        (first_changed_field_none_iff rfl).mpr rfl]

/-! ## What the gates accept -/

theorem derive_lock_nodup (graph : CorpusGraph) :
    ((derive_lock graph).entries.map SourceLockEntry.document_key).Nodup := by
  have hperm : ((derive_lock graph).entries.map SourceLockEntry.document_key).Perm
      (((effective_source_heads graph).values.filterMap (derive_entry graph)).map
        SourceLockEntry.document_key) :=
    (sortBy_perm _).map _
  have hkey : ∀ head entry, derive_entry graph head = some entry →
      entry.document_key = head.1 := by
    intro head entry h
    unfold derive_entry at h
    split at h
    · cases h
      rfl
    · cases h
  refine hperm.nodup_iff.mpr ?_
  have hvalues := (effective_source_heads graph).values_keys_nodup
  rw [List.Nodup, List.pairwise_map] at hvalues ⊢
  refine List.Pairwise.filterMap _ ?_ hvalues
  intro head other hne entry hentry entry' hentry' heq
  rw [hkey head entry hentry, hkey other entry' hentry'] at heq
  exact hne heq

theorem sort_entries_congr {entries entries' : List SourceLockEntry}
    (hnodup : (entries.map SourceLockEntry.document_key).Nodup) (h : entries.Perm entries') :
    sort_entries entries = sort_entries entries' := by
  refine sortBy_congr h ?_
  intro a ha b hb hcmp
  have hkey := (Ordering.then_eq_eq.mp hcmp).1
  exact List.inj_on_of_nodup_map hnodup ha hb (Std.LawfulEqCmp.eq_of_compare hkey)

def derived_under (version : UInt32) (graph : CorpusGraph) : SourceLock :=
  { derive_lock graph with schema_version := version }

theorem sort_derived (graph : CorpusGraph) :
    sort_entries (derive_lock graph).entries = (derive_lock graph).entries :=
  sort_entries_congr (derive_lock_nodup graph) (sortBy_perm _)

section Gates

variable [Sha256] [F64Display] [LockToml]

omit [Sha256] [F64Display] in
theorem parse_lock_derived {graph : CorpusGraph} {version : UInt32}
    (hversion : version ≤ SUPPORTED_LOCK_SCHEMA)
    (htoml : parse_wire (lock_text (derived_under version graph)) =
      some (derived_under version graph).wire) :
    parse_lock (render_lock_canonical (derived_under version graph)) =
      .ok (derived_under version graph) := by
  have hwire : (derived_under version graph).wire.entries =
      (derive_lock graph).entries.map SourceLockEntry.wire :=
    congrArg (List.map _) (sort_derived graph)
  obtain ⟨seen, hloop⟩ := parse_entries_wire [] [] (fun _ _ => List.not_mem_nil)
    (derive_lock_nodup graph)
  rw [parse_lock, render_lock_canonical, from_utf8_str_bytes]
  simp only [htoml]
  refine seq_ok_iff.mpr ⟨failIf_ok_iff.mpr (UInt32.not_lt.mpr hversion), ?_⟩
  rw [hwire, hloop]
  rfl

/-- **What the three gates accept.** The accepted files are the canonical renderings of the
derived entries, under any schema version that is not too new. -/
theorem validate_committed_lock_ok_iff {bytes : List UInt8} {graph : CorpusGraph}
    (htoml : ∀ version ≤ SUPPORTED_LOCK_SCHEMA,
      parse_wire (lock_text (derived_under version graph)) =
        some (derived_under version graph).wire) :
    validate_committed_lock bytes graph = .ok () ↔
      graph.validate = .ok () ∧ ∃ version ≤ SUPPORTED_LOCK_SCHEMA,
        bytes = render_lock_canonical (derived_under version graph) := by
  rw [validate_committed_lock, seq_ok_iff, mapError_ok_iff, bind_ok_iff]
  refine and_congr_right fun _ => ?_
  constructor
  · rintro ⟨committed, hparse, h⟩
    obtain ⟨hcanonical, hdiff⟩ := seq_ok_iff.mp h
    obtain ⟨hversion, hnodup⟩ := parse_lock_ok hparse
    have hperm := (diff_inventories_ok_iff (derive_lock_nodup graph) hnodup).mp hdiff
    have hbytes := not_not.mp (failIf_ok_iff.mp hcanonical)
    refine ⟨committed.schema_version, hversion, ?_⟩
    rw [← hbytes, render_lock_canonical, render_lock_canonical, lock_text, lock_text,
      ← sort_entries_congr (derive_lock_nodup graph) hperm]
    rfl
  · rintro ⟨version, hversion, rfl⟩
    refine ⟨_, parse_lock_derived hversion (htoml version hversion), ?_⟩
    refine seq_ok_iff.mpr ⟨failIf_ok_iff.mpr (not_not.mpr rfl), ?_⟩
    exact (diff_inventories_ok_iff (derive_lock_nodup graph) (derive_lock_nodup graph)).mpr
      (List.Perm.refl _)

omit [Sha256] [F64Display] [LockToml] in
theorem supported_version {version : UInt32} (h : version ≤ SUPPORTED_LOCK_SCHEMA) :
    version = 0 ∨ version = SUPPORTED_LOCK_SCHEMA := by
  have hle : version.toNat ≤ 1 := UInt32.le_iff_toNat_le.mp h
  rcases Nat.le_one_iff_eq_zero_or_eq_one.mp hle with hzero | hone
  · exact .inl (UInt32.toNat_inj.mp hzero)
  · exact .inr (UInt32.toNat_inj.mp hone)

omit [Sha256] [F64Display] [LockToml] in
theorem render_version_ne (graph : CorpusGraph) :
    render_lock_canonical (derived_under 0 graph) ≠ render_lock_canonical (derive_lock graph) := by
  intro h
  have htext := String.ofList_injective (str_bytes_inj h)
  rw [List.append_assoc, List.append_assoc, List.append_assoc, List.append_assoc] at htext
  have htail := List.append_cancel_left htext
  have hzero : push_decimal (0 : UInt32).toNat = ['0'] := by decide +kernel
  have hone : push_decimal SUPPORTED_LOCK_SCHEMA.toNat = ['1'] := by decide +kernel
  rw [derived_under, derive_lock, hzero, hone] at htail
  exact absurd (List.cons.inj htail).1 (by decide)

/-- **Acceptance means the derived lock, unless the file is the lock of version 0.** -/
theorem committed_lock_iff (bytes : List UInt8) (graph : CorpusGraph)
    (htoml : ∀ version ≤ SUPPORTED_LOCK_SCHEMA,
      parse_wire (lock_text (derived_under version graph)) =
        some (derived_under version graph).wire) :
    (validate_committed_lock bytes graph = .ok () ↔
        graph.validate = .ok () ∧ bytes = render_lock_canonical (derive_lock graph)) ↔
      ¬ (graph.validate = .ok () ∧ bytes = render_lock_canonical (derived_under 0 graph)) := by
  rw [validate_committed_lock_ok_iff htoml]
  constructor
  · rintro hclaim ⟨hvalid, hzero⟩
    obtain ⟨-, hone⟩ := hclaim.mp ⟨hvalid, 0, by decide, hzero⟩
    exact render_version_ne graph (hzero.symm.trans hone)
  · intro hexcept
    refine and_congr_right fun hvalid => ?_
    constructor
    · rintro ⟨version, hversion, hbytes⟩
      rcases supported_version hversion with rfl | rfl
      · exact absurd ⟨hvalid, hbytes⟩ hexcept
      · exact hbytes
    · intro hbytes
      exact ⟨SUPPORTED_LOCK_SCHEMA, UInt32.le_refl _, hbytes⟩

end Gates

/-! ## The empty lock -/

/-- A parser that reads the empty lock of either version. -/
@[reducible] def empty_lock_toml : LockToml where
  parse_wire := fun text =>
    if text = "schema_version = 0\n" then some { schema_version := 0, entries := [] }
    else if text = "schema_version = 1\n" then some { schema_version := 1, entries := [] }
    else none

attribute [local instance] fips180 F64.exact_display empty_lock_toml

theorem empty_lock_parses (version : UInt32) (hversion : version ≤ SUPPORTED_LOCK_SCHEMA) :
    parse_wire (lock_text (derived_under version CorpusGraph.new)) =
      some (derived_under version CorpusGraph.new).wire := by
  rcases supported_version hversion with rfl | rfl <;> decide +kernel

/-- The derived lock of an empty graph is accepted. -/
theorem committed_lock_empty :
    validate_committed_lock (str_bytes "schema_version = 1\n") CorpusGraph.new = .ok () := by
  have hne : ¬ (CorpusGraph.new.validate = .ok () ∧ str_bytes "schema_version = 1\n" =
      render_lock_canonical (derived_under 0 CorpusGraph.new)) := by
    decide +kernel
  refine ((committed_lock_iff _ _ empty_lock_parses).mpr hne).mpr ⟨?_, ?_⟩ <;> decide +kernel

/-- **The lock of version 0 is accepted**, and is not the derived lock. -/
theorem committed_lock_version_zero :
    ¬ (validate_committed_lock (str_bytes "schema_version = 0\n") CorpusGraph.new = .ok () ↔
      CorpusGraph.new.validate = .ok () ∧
        str_bytes "schema_version = 0\n" =
          render_lock_canonical (derive_lock CorpusGraph.new)) := by
  decide +kernel

end Evidence.Corpus
