/-
The **JSON layer**: values, lookups in them, their indented rendering, and reading
records out of them.

An object is the list of its members; a lookup takes the first of a name. The
rendering puts every item and every member on a line of its own, two blanks further
in than the brackets that hold it; an empty array or object stays on one line.

A record is read from an object, by the names of its fields, in which no field may stand
twice and other members are passed over; or from an array, by the places of its fields,
which may stop short but not go on. A list is read item by item. Two records that read
one value under different lists of names see the same members of an object
(`lookup_fields`), and what is written as a list of values is read back (`vec_array`).
-/
import Mathlib.Data.List.Basic
import Mathlib.Data.Nat.Notation

set_option autoImplicit false

namespace Json

/-- A number: a natural one, the negative of one, or a fraction as it is printed. -/
inductive Number where
  | PosInt (n : ℕ)
  | NegInt (n : ℕ)
  | Float (text : String)
deriving DecidableEq

/-- A JSON value. -/
inductive Value where
  | null
  | bool (b : Bool)
  | number (n : Number)
  | string (s : String)
  | array (items : List Value)
  | object (members : List (String × Value))

namespace Value

/-- The member of a name. -/
def get (key : String) : Value → Option Value
  | object members => (members.find? fun member => member.1 == key).map Prod.snd
  | _ => none

def as_str : Value → Option String
  | string s => some s
  | _ => none

def as_u64 : Value → Option ℕ
  | number (.PosInt n) => some n
  | _ => none

end Value

/-! ## Rendering -/

/-- A lower-case hexadecimal digit. -/
def hex_digit (n : ℕ) : Char :=
  if n < 10 then Char.ofNat (n + 48) else Char.ofNat (n + 87)

/-- A character inside quotes: the two that quote, and the control characters, are escaped. -/
def escape_char (c : Char) : List Char :=
  if c = '"' then ['\\', '"']
  else if c = '\\' then ['\\', '\\']
  else if c.toNat = 8 then ['\\', 'b']
  else if c.toNat = 9 then ['\\', 't']
  else if c.toNat = 10 then ['\\', 'n']
  else if c.toNat = 12 then ['\\', 'f']
  else if c.toNat = 13 then ['\\', 'r']
  else if c.toNat < 32 then ['\\', 'u', '0', '0', hex_digit (c.toNat / 16), hex_digit (c.toNat % 16)]
  else [c]

def quoted (s : String) : String :=
  "\"" ++ String.ofList (s.toList.flatMap escape_char) ++ "\""

def Number.display : Number → String
  | PosInt n => toString n
  | NegInt n => "-" ++ toString n
  | Float text => text

/-- A new line, indented. -/
def newline (depth : ℕ) : String :=
  "\n" ++ String.ofList (List.replicate (2 * depth) ' ')

mutual

def pretty (depth : ℕ) : Value → String
  | .null => "null"
  | .bool b => if b then "true" else "false"
  | .number n => n.display
  | .string s => quoted s
  | .array [] => "[]"
  | .array (item :: items) =>
    "[" ++ newline (depth + 1) ++ pretty (depth + 1) item ++ pretty_items (depth + 1) items ++
      newline depth ++ "]"
  | .object [] => "\x7b\x7d"
  | .object ((key, value) :: members) =>
    "\x7b" ++ newline (depth + 1) ++ quoted key ++ ": " ++ pretty (depth + 1) value ++
      pretty_members (depth + 1) members ++ newline depth ++ "\x7d"

def pretty_items (depth : ℕ) : List Value → String
  | [] => ""
  | item :: items => "," ++ newline depth ++ pretty depth item ++ pretty_items depth items

/-- The members of an object after the first. -/
def pretty_members (depth : ℕ) : List (String × Value) → String
  | [] => ""
  | (key, value) :: members =>
    "," ++ newline depth ++ quoted key ++ ": " ++ pretty depth value ++
      pretty_members depth members

end

/-- `serde_json::to_string_pretty`. -/
def to_string_pretty (v : Value) : String :=
  pretty 0 v

theorem pretty_members_append (depth : ℕ) (members members' : List (String × Value)) :
    pretty_members depth (members ++ members') =
      pretty_members depth members ++ pretty_members depth members' := by
  induction members with
  | nil => rw [List.nil_append, pretty_members, String.empty_append]
  | cons member members ih =>
    simp only [List.cons_append, pretty_members, ih, String.append_assoc]

/-- **A member can be read off the rendering**, where the members around it are known. -/
theorem pretty_member_inj {depth : ℕ} {first : String × Value}
    {front back : List (String × Value)} {key : String} {v v' : Value}
    (h : pretty depth (.object (first :: (front ++ (key, v) :: back))) =
      pretty depth (.object (first :: (front ++ (key, v') :: back)))) :
    pretty (depth + 1) v = pretty (depth + 1) v' := by
  simpa only [pretty, pretty_members_append, pretty_members, String.append_assoc,
    String.append_right_inj, ← String.append_assoc, String.append_left_inj] using h

/-! ## Records -/

variable {α β γ δ : Type}

/-- The fields of a record, of the names given, that a value states. -/
def fields (names : List String) : Value → Option (List (String × Value))
  | .object members =>
    let known := members.filter fun member => member.1 ∈ names
    if (known.map Prod.fst).Nodup then some known else none
  | .array items => if items.length ≤ names.length then some (names.zip items) else none
  | _ => none

/-- A field that must be there. -/
def required (f : Value → Option α) (stated : List (String × Value)) (name : String) : Option α :=
  (stated.lookup name).bind f

/-- A field that has a default. -/
def defaulted (f : Value → Option α) (default : α) (stated : List (String × Value))
    (name : String) : Option α :=
  (stated.lookup name).elim (some default) f

def vec (f : Value → Option α) : Value → Option (List α)
  | .array items => items.mapM f
  | _ => none

def nullable (f : Value → Option α) : Value → Option (Option α)
  | .null => some none
  | v => (f v).map some

theorem lookup_filter_names {names : List String} {name : String} (hname : name ∈ names)
    (members : List (String × Value)) :
    (members.filter fun member => member.1 ∈ names).lookup name = members.lookup name := by
  induction members with
  | nil => rfl
  | cons member members ih =>
    obtain ⟨key, value⟩ := member
    by_cases hkey : name = key
    · -- the member that is looked for passes the filter
      rw [hkey] at hname
      rw [List.filter_cons, if_pos (decide_eq_true hname), hkey, List.lookup_cons_self,
        List.lookup_cons_self]
    · have hne : (name == key) = false := beq_eq_false_iff_ne.mpr hkey
      rw [List.filter_cons, List.lookup_cons, hne]
      by_cases hknown : key ∈ names
      · rw [if_pos (decide_eq_true hknown), List.lookup_cons, hne]
        exact ih
      · rw [if_neg (by simpa using hknown)]
        exact ih

theorem lookup_fields {names : List String} {members stated : List (String × Value)}
    (h : fields names (.object members) = some stated) {name : String} (hname : name ∈ names) :
    stated.lookup name = members.lookup name := by
  rw [fields] at h
  split_ifs at h
  rw [← Option.some.inj h, lookup_filter_names hname]

theorem vec_eq_some {f : Value → Option α} {v : Value} {xs : List α} (h : vec f v = some xs) :
    ∃ items, v = .array items ∧ items.mapM f = some xs := by
  cases v with
  | array items => exact ⟨items, rfl, h⟩
  | _ => cases h

/-- **Two readings of a list agree where those of its items do.** -/
theorem vec_views {f : Value → Option α} {g : Value → Option β} {a : α → γ} {b : β → γ}
    (hviews : ∀ v x y, f v = some x → g v = some y → a x = b y) {v : Value} {xs : List α}
    {ys : List β} (hxs : vec f v = some xs) (hys : vec g v = some ys) : xs.map a = ys.map b := by
  obtain ⟨items, rfl, hitems⟩ := vec_eq_some hxs
  clear hxs
  rw [vec] at hys
  induction items generalizing xs ys with
  | nil =>
    rw [List.mapM_nil] at hitems hys
    rw [← Option.some.inj hitems, ← Option.some.inj hys]
    rfl
  | cons item items ih =>
    simp only [List.mapM_cons, Option.bind_eq_bind, Option.bind_eq_some_iff, Option.pure_def,
      Option.some.injEq] at hitems hys
    obtain ⟨x, hx, xs, hxs, rfl⟩ := hitems
    obtain ⟨y, hy, ys, hys, rfl⟩ := hys
    rw [List.map_cons, List.map_cons, hviews item x y hx hy, ih hxs hys]

/-- **What was written as an array is read back.** -/
theorem vec_array {f : Value → Option α} {g : α → Value} (hg : ∀ x, f (g x) = some x)
    (xs : List α) : vec f (.array (xs.map g)) = some xs := by
  rw [vec]
  induction xs with
  | nil => rfl
  | cons x xs ih =>
    rw [List.map_cons, List.mapM_cons, hg, ih]
    rfl

end Json
