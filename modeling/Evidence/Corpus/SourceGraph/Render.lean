/-
`corpus/source_graph/render.rs` -- the canonical byte rendering of source nodes.

The rendering is an unframed, TOML-shaped text: nodes in uid order, fields in a
fixed order, one line each, strings in minimal basic-string escaping, absent
optional fields left out. Nothing but the escaping and the field order keeps one
graph's text from being another's, and this file proves that they suffice.

The argument goes part by part. An escaped character reads back in front of any
rest, so a quoted string does: a quote never starts an escape. A field line reads
back, and an optional line does because the line after it starts with another
key. A locator reads back up to the text of its bounding box, a node up to its
locator, and the list of nodes because every node starts with its own header.
-/
import Evidence.Lib.Codec
import Evidence.Lib.Sorting
import Evidence.Corpus.SourceGraph.Basic

set_option autoImplicit false

namespace Evidence.Corpus

open Codec Sorting

/-! ## Strings -/

/-- The characters of a fixed text. Only the kernel ever has to see them, so the
elaborator is kept from computing them. -/
@[irreducible] def text (s : String) : List Char := s.toList

/-- An upper-case hexadecimal digit. -/
def upper_hex_digit (n : ℕ) : Char :=
  ['0', '1', '2', '3', '4', '5', '6', '7', '8', '9', 'A', 'B', 'C', 'D', 'E', 'F'].getD n '0'

/-- `{:04X}` of a number below `2^16`. -/
def upper_hex4 (n : ℕ) : List Char :=
  [upper_hex_digit (n / 4096 % 16), upper_hex_digit (n / 256 % 16), upper_hex_digit (n / 16 % 16),
    upper_hex_digit (n % 16)]

/-- One character of a TOML basic string in minimal escaping. -/
def push_escaped (c : Char) : List Char :=
  if c = '"' then ['\\', '"']
  else if c = '\\' then ['\\', '\\']
  else if c.toNat = 0x08 then ['\\', 'b']
  else if c.toNat = 0x09 then ['\\', 't']
  else if c.toNat = 0x0A then ['\\', 'n']
  else if c.toNat = 0x0C then ['\\', 'f']
  else if c.toNat = 0x0D then ['\\', 'r']
  else if c.toNat < 0x20 ∨ c.toNat = 0x7F then '\\' :: 'u' :: upper_hex4 c.toNat
  else [c]

/-- A TOML basic string with deterministic minimal escaping. -/
def push_basic_string (value : String) : List Char :=
  '"' :: value.toList.flatMap push_escaped ++ ['"']

def push_field (key value : String) : List Char :=
  text key ++ text " = " ++ push_basic_string value ++ ['\n']

/-- The decimal digits of a number. -/
def push_decimal (n : ℕ) : List Char := (decimal n).toList

/-- One `key = ["a", "b"]` line. -/
def push_string_array (key : String) (values : List String) : List Char :=
  text key ++ text " = [" ++ separated push_basic_string (text ", ") values ++ text "]\n"

/-- One `key = [0, 2]` line. -/
def push_u32_array (key : String) (values : List UInt32) : List Char :=
  text key ++ text " = [" ++ separated (fun v : UInt32 => push_decimal v.toNat) (text ", ") values ++
    text "]\n"

/-! ## Locators and nodes -/

section Text

variable [F64Display]

/-- A locator's fields behind its `format` line, in schema order. -/
def push_locator_fields : SourceLocator → List Char
  | .Markdown path git_blob anchor heading_path byte_range =>
    push_field "path" path.as_str ++ optional (push_field "git_blob") git_blob ++
      optional (push_field "anchor") anchor ++ push_string_array "heading_path" heading_path ++
      (text "byte_range = [" ++ push_decimal byte_range.1.toNat ++ text ", " ++
        push_decimal byte_range.2.toNat ++ text "]\n")
  | .Html canonical_url final_url fragment heading_path dom_path =>
    push_field "canonical_url" canonical_url ++ optional (push_field "final_url") final_url ++
      optional (push_field "fragment") fragment ++ push_string_array "heading_path" heading_path ++
      push_u32_array "dom_path" dom_path
  | .Pdf physical_page printed_label bbox =>
    text "physical_page = " ++ push_decimal physical_page.toNat ++ ['\n'] ++
      optional (push_field "printed_label") printed_label ++
      (text "bbox = [" ++ (display (bbox.get 0)).toList ++ text ", " ++
        (display (bbox.get 1)).toList ++ text ", " ++ (display (bbox.get 2)).toList ++ text ", " ++
        (display (bbox.get 3)).toList ++ text "]\n")

/-- Render one locator's fields in schema order. -/
def push_locator (locator : SourceLocator) : List Char :=
  push_field "format" locator.format_str ++ push_locator_fields locator

/-- Render one locator's fields, standalone. -/
def render_locator_fields (locator : SourceLocator) : String :=
  String.ofList (push_locator locator)

/-- One node's block. -/
def render_node (node : SourceNode) : List Char :=
  text "\n[[nodes]]\n" ++ push_field "uid" node.uid ++
    push_field "source_revision_uid" node.source_revision_uid ++
    optional (push_field "parent_uid") node.parent_uid ++ push_field "kind" node.kind.as_str ++
    (text "ordinal = " ++ push_decimal node.ordinal.toNat ++ ['\n']) ++
    optional (push_field "label") node.label ++
    push_field "canonical_text" node.canonical_text ++
    push_field "content_sha256" node.content_sha256.as_str ++
    push_field "fingerprint" node.fingerprint.as_str ++ text "\n[nodes.locator]\n" ++
    push_locator node.locator

def uid_cmp : SourceNode → SourceNode → Ordering := compareOn SourceNode.uid

instance : Std.TransCmp uid_cmp :=
  inferInstanceAs (Std.TransCmp (compareOn SourceNode.uid))

/-- Render `nodes` in the canonical form, sorted into uid order first. -/
def render_sorted_nodes (nodes : List SourceNode) : List UInt8 :=
  str_bytes (String.ofList (text "schema_version = 1\n" ++
    (sortBy uid_cmp nodes).flatMap render_node))

end Text

/-! ## What a rendering shows

Bounding boxes are compared through the text of their coordinates; everything
else is shown as it is. -/

/-- A locator whose bounding box is text. -/
inductive RenderedLocator where
  | Markdown (path : SafeRelPath) (git_blob : Option String) (anchor : Option String)
      (heading_path : List String) (byte_range : UInt64 × UInt64)
  | Html (canonical_url : String) (final_url : Option String) (fragment : Option String)
      (heading_path : List String) (dom_path : List UInt32)
  | Pdf (physical_page : UInt32) (printed_label : Option String) (bbox : List String)
deriving DecidableEq

def SourceLocator.rendered [F64Display] : SourceLocator → RenderedLocator
  | .Markdown path git_blob anchor heading_path byte_range =>
    .Markdown path git_blob anchor heading_path byte_range
  | .Html canonical_url final_url fragment heading_path dom_path =>
    .Html canonical_url final_url fragment heading_path dom_path
  | .Pdf physical_page printed_label bbox =>
    .Pdf physical_page printed_label
      [display (bbox.get 0), display (bbox.get 1), display (bbox.get 2), display (bbox.get 3)]

structure RenderedNode where
  uid : String
  source_revision_uid : String
  parent_uid : Option String
  kind : SourceNodeKind
  ordinal : UInt32
  label : Option String
  canonical_text : String
  content_sha256 : StructuralContentDigest
  fingerprint : StructuralContentDigest
  locator : RenderedLocator
deriving DecidableEq

def SourceNode.rendered [F64Display] (node : SourceNode) : RenderedNode where
  uid := node.uid
  source_revision_uid := node.source_revision_uid
  parent_uid := node.parent_uid
  kind := node.kind
  ordinal := node.ordinal
  label := node.label
  canonical_text := node.canonical_text
  content_sha256 := node.content_sha256
  fingerprint := node.fingerprint
  locator := node.locator.rendered

/-! ## Strings read back -/

/-- The number an upper-case hexadecimal digit stands for. -/
private def hex_value (c : Char) : ℕ :=
  ['0', '1', '2', '3', '4', '5', '6', '7', '8', '9', 'A', 'B', 'C', 'D', 'E', 'F'].idxOf c

/-- The character a one-letter escape stands for. -/
private def unescape_letter (e : Char) : Char :=
  if e = 'b' then Char.ofNat 0x08
  else if e = 't' then Char.ofNat 0x09
  else if e = 'n' then Char.ofNat 0x0A
  else if e = 'f' then Char.ofNat 0x0C
  else if e = 'r' then Char.ofNat 0x0D
  else e

/-- Read one character of a basic string back. -/
private def read_escaped : List Char → Option (Char × List Char)
  | [] => none
  | c :: rest =>
    if c ≠ '\\' then some (c, rest)
    else
      match rest with
      | [] => none
      | e :: rest =>
        if e ≠ 'u' then some (unescape_letter e, rest)
        else
          match rest with
          | a :: b :: c :: d :: rest =>
            some (Char.ofNat (hex_value a * 4096 + hex_value b * 256 + hex_value c * 16 +
              hex_value d), rest)
          | _ => none

/-- Four hexadecimal digits read back as the control code they were written for. -/
private theorem hex_value_upper_hex4 : ∀ n < 128,
    (upper_hex4 n).map hex_value = [n / 4096 % 16, n / 256 % 16, n / 16 % 16, n % 16] := by
  decide

/-- **An escaped character reads back.** -/
private theorem push_escaped_reads : ReadsBack id push_escaped := by
  refine ReadsBack.of_decoder read_escaped ?_
  intro c s
  have hletter : ∀ n : ℕ, c.toNat = n → c = Char.ofNat n := by
    intro n hn
    rw [← hn, Char.ofNat_toNat]
  rw [push_escaped]
  split_ifs with h1 h2 h3 h4 h5 h6 h7 h8
  · rw [h1]; rfl
  · rw [h2]; rfl
  · rw [hletter _ h3]; rfl
  · rw [hletter _ h4]; rfl
  · rw [hletter _ h5]; rfl
  · rw [hletter _ h6]; rfl
  · rw [hletter _ h7]; rfl
  · have hlt : c.toNat < 128 := by omega
    have hdigits := hex_value_upper_hex4 c.toNat hlt
    simp only [upper_hex4, List.map_cons, List.map_nil, List.cons.injEq, and_true] at hdigits
    simp only [upper_hex4, List.cons_append, List.nil_append, read_escaped, ne_eq, not_true,
      if_false, hdigits, id_eq, Option.some.injEq, Prod.mk.injEq, and_true]
    rw [show c.toNat / 4096 % 16 * 4096 + c.toNat / 256 % 16 * 256 + c.toNat / 16 % 16 * 16 +
      c.toNat % 16 = c.toNat by omega, Char.ofNat_toNat]
  · simp only [List.cons_append, List.nil_append, read_escaped, ne_eq, h2, not_false_eq_true,
      if_true, id_eq]

private theorem push_escaped_ne_quote (c : Char) (s u : List Char) :
    '"' :: s ≠ push_escaped c ++ u := by
  intro h
  rw [push_escaped] at h
  split_ifs at h with h1 h2 h3 h4 h5 h6 h7 h8
  all_goals first
    | exact absurd (List.cons.inj h).1 (by decide)
    | exact h1 (List.cons.inj h).1.symm

/-- **A basic string reads back**: its closing quote starts no escape. -/
theorem push_basic_string_reads : ReadsBack id push_basic_string := by
  intro a b s t h
  simp only [push_basic_string, List.cons_append, List.append_assoc, List.cons.injEq, true_and,
    List.nil_append] at h
  obtain ⟨hmap, hrest⟩ := flatMap_inj push_escaped_reads
    (fun c u => push_escaped_ne_quote c s u) (fun c u => push_escaped_ne_quote c t u) h
  rw [List.map_id, List.map_id, String.toList_inj] at hmap
  exact ⟨hmap, (List.cons.inj hrest).2⟩

theorem push_field_reads (key : String) : ReadsBack id (push_field key) := by
  intro a b s t h
  simp only [push_field, List.append_assoc] at h
  obtain ⟨hvalue, hrest⟩ := push_basic_string_reads a b _ _
    (List.append_cancel_left (List.append_cancel_left h))
  exact ⟨hvalue, List.append_cancel_left hrest⟩

/-- A field line does not start as a line of another key does. -/
theorem push_field_ne {key : String} {l : List Char} (hkl : ¬ l <+: text key)
    (hlk : ¬ text key <+: l) (s value u) : l ++ s ≠ push_field key value ++ u := by
  rw [push_field, List.append_assoc, List.append_assoc, List.append_assoc]
  exact append_ne hkl hlk s _

/-! ## Numbers read back -/

/-- A decimal number reads back in front of anything but a digit. -/
theorem push_decimal_reads :
    ReadsBefore (Stops Char.isDigit) id push_decimal := by
  refine ReadsBefore.of_run Char.isDigit ?_ ?_
  · intro n c hc
    rw [push_decimal, decimal, Nat.toList_repr] at hc
    exact Nat.isDigit_of_mem_toDigits (by decide) (by decide) hc
  · intro n m h
    rw [push_decimal, push_decimal, decimal, decimal, Nat.toList_repr, Nat.toList_repr] at h
    rw [id_eq, id_eq, ← Nat.ofDigitChars_ten_toDigits (n := n), h, Nat.ofDigitChars_ten_toDigits]

/-- A coordinate reads back, up to its text, in front of anything that cannot
continue a number. -/
theorem display_reads [F64Display] :
    ReadsBefore (Stops F64.is_display_char) display fun x => (display x).toList := by
  refine ReadsBefore.of_run F64.is_display_char F64Display.display_chars ?_
  intro x y h
  exact String.toList_inj.mp h

/-! ## Lists read back -/

theorem push_string_array_reads (key : String) : ReadsBack id (push_string_array key) := by
  intro xs ys s t h
  simp only [push_string_array, List.append_assoc] at h
  have hclose : ∀ (u : List Char) (a : String) (v : List Char),
      text "]\n" ++ u ≠ push_basic_string a ++ v := by
    intro u a v
    exact append_ne (l := ['"']) (by decide +kernel) (by decide +kernel) u _
  have hsep : ∀ u v : List Char, text "]\n" ++ u ≠ text ", " ++ v := by
    exact append_ne (by decide +kernel) (by decide +kernel)
  obtain ⟨hmap, hrest⟩ := separated_inj (push_basic_string_reads.before fun _ => True)
    (fun _ => trivial) trivial trivial (hclose s) (hclose t) (hsep s) (hsep t)
    (List.append_cancel_left (List.append_cancel_left h))
  rw [List.map_id, List.map_id] at hmap
  exact ⟨hmap, List.append_cancel_left hrest⟩

theorem push_u32_array_reads (key : String) : ReadsBack id (push_u32_array key) := by
  intro xs ys s t h
  simp only [push_u32_array, List.append_assoc] at h
  have hreads : ReadsBefore (Stops Char.isDigit) id
      fun v : UInt32 => push_decimal v.toNat := by
    intro v w s t hs ht hvw
    obtain ⟨hnat, hst⟩ := push_decimal_reads _ _ _ _ hs ht hvw
    exact ⟨UInt32.toNat_inj.mp hnat, hst⟩
  have hcomma : Stops Char.isDigit (text ", ") := by decide +kernel
  have hbracket : Stops Char.isDigit (text "]\n") := by decide +kernel
  have hne : text "]\n" ≠ [] := by decide +kernel
  have hclose : ∀ (u : List Char) (a : UInt32) (v : List Char),
      text "]\n" ++ u ≠ push_decimal a.toNat ++ v := by
    intro u a v huv
    have hne : push_decimal a.toNat ≠ [] := by
      rw [push_decimal, decimal, Nat.toList_repr]
      exact Nat.toDigits_ne_nil
    obtain ⟨c, cs, hcs⟩ := List.exists_cons_of_ne_nil hne
    have hdigit : c.isDigit = true := by
      have hmem : c ∈ push_decimal a.toNat := hcs ▸ List.mem_cons_self
      rw [push_decimal, decimal, Nat.toList_repr] at hmem
      exact Nat.isDigit_of_mem_toDigits (by decide) (by decide) hmem
    have htext : text "]\n" = [']', '\n'] := by decide +kernel
    rw [hcs, htext] at huv
    rw [← (List.cons.inj huv).1] at hdigit
    exact absurd hdigit (by decide)
  have hsep : ∀ u v : List Char, text "]\n" ++ u ≠ text ", " ++ v := by
    exact append_ne (by decide +kernel) (by decide +kernel)
  obtain ⟨hmap, hrest⟩ := separated_inj hreads (hcomma.append (by decide +kernel))
    (hbracket.append hne s) (hbracket.append hne t) (hclose s) (hclose t) (hsep s) (hsep t)
    (List.append_cancel_left (List.append_cancel_left h))
  rw [List.map_id, List.map_id] at hmap
  exact ⟨hmap, List.append_cancel_left hrest⟩

/-! ## Locators read back -/

section

variable [F64Display]

omit [F64Display] in
/-- An optional field line reads back when the lines behind it start with another
key. -/
theorem push_optional_field {key : String} {o o' : Option String} {s t : List Char}
    (hs : ∀ value u, s ≠ push_field key value ++ u) (ht : ∀ value u, t ≠ push_field key value ++ u)
    (h : optional (push_field key) o ++ s = optional (push_field key) o' ++ t) : o = o' ∧ s = t := by
  obtain ⟨hmap, hst⟩ := optional_inj (push_field_reads key) hs ht h
  rw [Option.map_id, id_eq, id_eq] at hmap
  exact ⟨hmap, hst⟩

omit [F64Display] in
/-- A line of quoted strings does not start as a line of another key does. -/
private theorem array_ne_field {key key' : String} (hkl : ¬ text key <+: text key')
    (hlk : ¬ text key' <+: text key) (values : List String) (s : List Char) (value u) :
    push_string_array key values ++ s ≠ push_field key' value ++ u := by
  rw [push_string_array, List.append_assoc, List.append_assoc, List.append_assoc]
  exact push_field_ne hkl hlk _ value u

omit [F64Display] in
/-- A field line does not start as a line of another key does. -/
theorem field_ne_field {key key' : String} (hkl : ¬ text key <+: text key')
    (hlk : ¬ text key' <+: text key) (v : String) (s : List Char) (value u) :
    push_field key v ++ s ≠ push_field key' value ++ u := by
  rw [push_field, List.append_assoc, List.append_assoc, List.append_assoc]
  exact push_field_ne hkl hlk _ value u

omit [F64Display] in
/-- An optional line in front of a text: neither starts as a line of another key. -/
private theorem optional_ne_field {key key' : String} (hkl : ¬ text key <+: text key')
    (hlk : ¬ text key' <+: text key) {s : List Char}
    (hs : ∀ value u, s ≠ push_field key' value ++ u) (o : Option String) (value u) :
    optional (push_field key) o ++ s ≠ push_field key' value ++ u := by
  cases o with
  | none => exact hs value u
  | some v => exact field_ne_field hkl hlk v s value u

omit [F64Display] in
/-- Two optional field lines in front of a line of quoted strings, of three keys none of which
begins another, read back. -/
private theorem two_fields_array_reads {first second third : String}
    (h12 : ¬ text second <+: text first ∧ ¬ text first <+: text second)
    (h13 : ¬ text third <+: text first ∧ ¬ text first <+: text third)
    (h23 : ¬ text third <+: text second ∧ ¬ text second <+: text third)
    {a a' b b' : Option String} {values values' : List String} {s t : List Char}
    (h : optional (push_field first) a ++
        (optional (push_field second) b ++ (push_string_array third values ++ s)) =
      optional (push_field first) a' ++
        (optional (push_field second) b' ++ (push_string_array third values' ++ t))) :
    a = a' ∧ b = b' ∧ values = values' ∧ s = t := by
  obtain ⟨ha, h⟩ := push_optional_field
    (optional_ne_field h12.1 h12.2 (array_ne_field h13.1 h13.2 _ _) _)
    (optional_ne_field h12.1 h12.2 (array_ne_field h13.1 h13.2 _ _) _) h
  obtain ⟨hb, h⟩ := push_optional_field (array_ne_field h23.1 h23.2 _ _)
    (array_ne_field h23.1 h23.2 _ _) h
  obtain ⟨hvalues, hst⟩ := push_string_array_reads third _ _ _ _ h
  exact ⟨ha, hb, hvalues, hst⟩

/-- **A locator reads back**, up to the text of its bounding box. -/
theorem push_locator_reads : ReadsBack SourceLocator.rendered push_locator := by
  intro a b s t h
  simp only [push_locator, List.append_assoc] at h
  obtain ⟨hformat, h⟩ := push_field_reads "format" _ _ _ _ h
  cases a with
  | Markdown path git_blob anchor heading_path byte_range =>
    cases b with
    | Html => exact absurd (show "markdown" = "html" from hformat) (by decide)
    | Pdf => exact absurd (show "markdown" = "pdf" from hformat) (by decide)
    | Markdown path' git_blob' anchor' heading_path' byte_range' =>
      simp only [push_locator_fields, List.append_assoc] at h
      obtain ⟨hpath, h⟩ := push_field_reads "path" _ _ _ _ h
      obtain ⟨hblob, hanchor, hheading, h⟩ := two_fields_array_reads (by decide +kernel)
        (by decide +kernel) (by decide +kernel) h
      obtain ⟨hstart, h⟩ := push_decimal_reads.closed (by decide +kernel) (by decide +kernel)
        (List.append_cancel_left h)
      obtain ⟨hend, hst⟩ := push_decimal_reads.closed (by decide +kernel) (by decide +kernel) h
      refine ⟨?_, hst⟩
      rw [SafeRelPath.ext_iff.mpr hpath, hblob, hanchor, hheading,
        Prod.ext (UInt64.toNat_inj.mp hstart) (UInt64.toNat_inj.mp hend)]
  | Html canonical_url final_url fragment heading_path dom_path =>
    cases b with
    | Markdown => exact absurd (show "html" = "markdown" from hformat) (by decide)
    | Pdf => exact absurd (show "html" = "pdf" from hformat) (by decide)
    | Html canonical_url' final_url' fragment' heading_path' dom_path' =>
      simp only [push_locator_fields, List.append_assoc] at h
      obtain ⟨hcanonical, h⟩ := push_field_reads "canonical_url" _ _ _ _ h
      obtain ⟨hfinal, hfragment, hheading, h⟩ := two_fields_array_reads (by decide +kernel)
        (by decide +kernel) (by decide +kernel) h
      obtain ⟨hdom, hst⟩ := push_u32_array_reads "dom_path" _ _ _ _ h
      rw [id_eq, id_eq] at hcanonical hdom
      rw [hcanonical, hfinal, hfragment, hheading, hdom]
      exact ⟨rfl, hst⟩
  | Pdf physical_page printed_label bbox =>
    cases b with
    | Markdown => exact absurd (show "pdf" = "markdown" from hformat) (by decide)
    | Html => exact absurd (show "pdf" = "html" from hformat) (by decide)
    | Pdf physical_page' printed_label' bbox' =>
      simp only [push_locator_fields, List.append_assoc] at h
      obtain ⟨hpage, h⟩ := push_decimal_reads.closed (by decide +kernel) (by decide +kernel)
        (List.append_cancel_left h)
      have hbbox : ∀ (x : List Char) (value : String) (u : List Char),
          text "bbox = [" ++ x ≠ push_field "printed_label" value ++ u :=
        fun x value u => push_field_ne (by decide +kernel) (by decide +kernel) x value u
      obtain ⟨hlabel, h⟩ := push_optional_field (hbbox _) (hbbox _) h
      obtain ⟨h0, h⟩ := display_reads.closed (by decide +kernel) (by decide +kernel)
        (List.append_cancel_left h)
      obtain ⟨h1, h⟩ := display_reads.closed (by decide +kernel) (by decide +kernel) h
      obtain ⟨h2, h⟩ := display_reads.closed (by decide +kernel) (by decide +kernel) h
      obtain ⟨h3, hst⟩ := display_reads.closed (by decide +kernel) (by decide +kernel) h
      refine ⟨?_, hst⟩
      rw [SourceLocator.rendered, SourceLocator.rendered, UInt32.toNat_inj.mp hpage, hlabel, h0, h1,
        h2, h3]

/-- The text of a locator depends on what it shows. -/
theorem push_locator_congr {a b : SourceLocator} (h : a.rendered = b.rendered) :
    push_locator a = push_locator b := by
  cases a with
  | Markdown =>
    cases b with
    | Markdown => cases h; rfl
    | Html | Pdf => cases h
  | Html =>
    cases b with
    | Html => cases h; rfl
    | Markdown | Pdf => cases h
  | Pdf =>
    cases b with
    | Markdown | Html => cases h
    | Pdf =>
      simp only [SourceLocator.rendered, RenderedLocator.Pdf.injEq, List.cons.injEq, and_true] at h
      obtain ⟨rfl, rfl, h0, h1, h2, h3⟩ := h
      simp only [push_locator, push_locator_fields, SourceLocator.format_str, h0, h1, h2, h3]

/-! ## Nodes read back -/

/-- **A node reads back**, up to its locator. -/
theorem render_node_reads : ReadsBack SourceNode.rendered render_node := by
  intro a b s t h
  simp only [render_node, List.append_assoc] at h
  obtain ⟨huid, h⟩ := push_field_reads "uid" _ _ _ _ (List.append_cancel_left h)
  obtain ⟨hrevision, h⟩ := push_field_reads "source_revision_uid" _ _ _ _ h
  obtain ⟨hparent, h⟩ := push_optional_field
    (field_ne_field (by decide +kernel) (by decide +kernel) _ _)
    (field_ne_field (by decide +kernel) (by decide +kernel) _ _) h
  obtain ⟨hkind, h⟩ := push_field_reads "kind" _ _ _ _ h
  obtain ⟨hordinal, h⟩ := push_decimal_reads.closed (by decide +kernel) (by decide +kernel)
    (List.append_cancel_left h)
  obtain ⟨hlabel, h⟩ := push_optional_field
    (field_ne_field (by decide +kernel) (by decide +kernel) _ _)
    (field_ne_field (by decide +kernel) (by decide +kernel) _ _) h
  obtain ⟨htext, h⟩ := push_field_reads "canonical_text" _ _ _ _ h
  obtain ⟨hcontent, h⟩ := push_field_reads "content_sha256" _ _ _ _ h
  obtain ⟨hfinger, h⟩ := push_field_reads "fingerprint" _ _ _ _ h
  obtain ⟨hlocator, hst⟩ := push_locator_reads _ _ _ _ (List.append_cancel_left h)
  refine ⟨?_, hst⟩
  rw [id_eq, id_eq] at huid hrevision htext
  simp only [SourceNode.rendered, RenderedNode.mk.injEq]
  exact ⟨huid, hrevision, hparent, SourceNodeKind.as_str_inj hkind, UInt32.toNat_inj.mp hordinal,
    hlabel, htext, StructuralContentDigest.ext_iff.mpr hcontent,
    StructuralContentDigest.ext_iff.mpr hfinger, hlocator⟩

/-- The text of a node depends on what it shows. -/
theorem render_node_congr {a b : SourceNode} (h : a.rendered = b.rendered) :
    render_node a = render_node b := by
  simp only [SourceNode.rendered, RenderedNode.mk.injEq] at h
  obtain ⟨huid, hrevision, hparent, hkind, hordinal, hlabel, htext, hcontent, hfinger, hlocator⟩ := h
  simp only [render_node, huid, hrevision, hparent, hkind, hordinal, hlabel, htext, hcontent,
    hfinger, push_locator_congr hlocator]

/-! ## Graphs -/

omit [F64Display] in
/-- The nodes of a graph are listed in the order the rendering sorts them into. -/
theorem sortBy_values (graph : SourceGraph) : sortBy uid_cmp graph.values = graph.values := by
  refine sortBy_eq_self (graph.values_sorted.imp ?_)
  intro a b hab
  rw [uid_cmp, compareOn, hab]
  rfl

/-- The nodes of two lists are shown alike exactly when the texts are equal. -/
theorem render_nodes_eq_iff {ms ns : List SourceNode} :
    ms.flatMap render_node = ns.flatMap render_node ↔
      ms.map SourceNode.rendered = ns.map SourceNode.rendered := by
  constructor
  · refine flatMap_inj_nil render_node_reads ?_
    intro node hnil
    simp only [render_node, List.append_assoc, List.append_eq_nil_iff] at hnil
    exact absurd hnil.1 (by decide +kernel)
  · exact flatMap_congr_view fun _ _ => render_node_congr

theorem render_values_eq_iff (A B : SourceGraph) :
    A.values.flatMap render_node = B.values.flatMap render_node ↔
      ∀ uid, (A.get uid).map SourceNode.rendered = (B.get uid).map SourceNode.rendered := by
  have hkey : ∀ node : SourceNode, node.rendered.uid = node.uid := fun _ => rfl
  have hviews := Store.map_values_eq_iff RenderedNode.uid hkey (s := A) (t := B)
  rw [← hviews, render_nodes_eq_iff]

theorem render_sorted_nodes_values (A B : SourceGraph) :
    render_sorted_nodes A.values = render_sorted_nodes B.values ↔
      A.values.flatMap render_node = B.values.flatMap render_node := by
  rw [render_sorted_nodes, render_sorted_nodes, sortBy_values, sortBy_values]
  constructor
  · intro h
    exact List.append_cancel_left (String.ofList_injective (str_bytes_inj h))
  · intro h
    rw [h]

/-- **The canonical rendering is injective**: the nodes of two graphs render to
the same bytes exactly when the graphs have the same uids and show, under each
uid, the same fields, bounding boxes compared through their text. -/
theorem render_sorted_nodes_eq_iff (A B : SourceGraph) :
    render_sorted_nodes A.values = render_sorted_nodes B.values ↔
      ∀ uid, (A.get uid).map SourceNode.rendered = (B.get uid).map SourceNode.rendered :=
  (render_sorted_nodes_values A B).trans (render_values_eq_iff A B)

end

end Evidence.Corpus
