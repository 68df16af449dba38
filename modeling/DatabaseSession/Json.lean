import DatabaseSession.Binary64

namespace DatabaseSession

/-- A JSON value. Whole numbers and floats are kept apart; an object's fields are kept in the
order of their names, each name once. -/
inductive Json where
  | null
  | bool (b : Bool)
  | int (i : Int)
  | float (x : Binary64)
  | string (s : String)
  | array (items : List Json)
  | object (fields : List (String × Json))
  deriving Repr, Inhabited

/-- Fields of an object, in the order of their names. -/
abbrev Fields := List (String × Json)

namespace Fields

/-- Sets a field in place, or puts it before the first greater name. -/
def insert (name : String) (value : Json) : Fields → Fields
  | [] => [(name, value)]
  | (n, v) :: rest =>
    if name < n then (name, value) :: (n, v) :: rest
    else if name = n then (n, value) :: rest
    else (n, v) :: insert name value rest

def get? (fields : Fields) (name : String) : Option Json :=
  (fields.find? fun f => f.1 = name).map (·.2)

def contains (fields : Fields) (name : String) : Bool := fields.any fun f => f.1 = name

def erase (fields : Fields) (name : String) : Fields := fields.filter fun f => f.1 ≠ name

/-- The later of two fields with one name wins. -/
def ofList (entries : List (String × Json)) : Fields :=
  entries.foldl (fun fields e => insert e.1 e.2 fields) []

theorem get?_insert_self (name : String) (value : Json) (fields : Fields) :
    get? (insert name value fields) name = some value := by
  induction fields with
  | nil => simp [insert, get?]
  | cons f rest ih =>
    obtain ⟨n, v⟩ := f
    simp only [insert]
    split
    · simp [get?]
    · split
      · next h => simp [get?, h]
      · next h =>
        have hne : n ≠ name := fun e => h e.symm
        simpa [get?, List.find?, hne] using ih

theorem get?_insert_of_ne {name other : String} (h : other ≠ name) (value : Json)
    (fields : Fields) : get? (insert name value fields) other = get? fields other := by
  induction fields with
  | nil => simp [insert, get?, h.symm]
  | cons f rest ih =>
    obtain ⟨n, v⟩ := f
    simp only [insert]
    split
    · simp [get?, List.find?, h.symm]
    · split
      · next hn => simp [get?, List.find?, ← hn, h.symm]
      · by_cases hn : n = other
        · simp [get?, List.find?, hn]
        · simpa [get?, List.find?, hn] using ih

end Fields

namespace Json

mutual

def decEq : (a b : Json) → Decidable (a = b)
  | .null, .null => .isTrue rfl
  | .bool x, .bool y => if h : x = y then .isTrue (by rw [h]) else .isFalse (by simp [h])
  | .int x, .int y => if h : x = y then .isTrue (by rw [h]) else .isFalse (by simp [h])
  | .float x, .float y => if h : x = y then .isTrue (by rw [h]) else .isFalse (by simp [h])
  | .string x, .string y => if h : x = y then .isTrue (by rw [h]) else .isFalse (by simp [h])
  | .array xs, .array ys =>
    match decEqItems xs ys with
    | .isTrue h => .isTrue (by rw [h])
    | .isFalse h => .isFalse (by simp [h])
  | .object xs, .object ys =>
    match decEqFields xs ys with
    | .isTrue h => .isTrue (by rw [h])
    | .isFalse h => .isFalse (by simp [h])
  | .null, .bool _ | .null, .int _ | .null, .float _ | .null, .string _ | .null, .array _
  | .null, .object _ => .isFalse nofun
  | .bool _, .null | .bool _, .int _ | .bool _, .float _ | .bool _, .string _
  | .bool _, .array _ | .bool _, .object _ => .isFalse nofun
  | .int _, .null | .int _, .bool _ | .int _, .float _ | .int _, .string _ | .int _, .array _
  | .int _, .object _ => .isFalse nofun
  | .float _, .null | .float _, .bool _ | .float _, .int _ | .float _, .string _
  | .float _, .array _ | .float _, .object _ => .isFalse nofun
  | .string _, .null | .string _, .bool _ | .string _, .int _ | .string _, .float _
  | .string _, .array _ | .string _, .object _ => .isFalse nofun
  | .array _, .null | .array _, .bool _ | .array _, .int _ | .array _, .float _
  | .array _, .string _ | .array _, .object _ => .isFalse nofun
  | .object _, .null | .object _, .bool _ | .object _, .int _ | .object _, .float _
  | .object _, .string _ | .object _, .array _ => .isFalse nofun

def decEqItems : (xs ys : List Json) → Decidable (xs = ys)
  | [], [] => .isTrue rfl
  | [], _ :: _ | _ :: _, [] => .isFalse nofun
  | x :: xs, y :: ys =>
    match decEq x y with
    | .isTrue h =>
      match decEqItems xs ys with
      | .isTrue hs => .isTrue (by rw [h, hs])
      | .isFalse hs => .isFalse (by simp [hs])
    | .isFalse h => .isFalse (by simp [h])

def decEqFields : (xs ys : List (String × Json)) → Decidable (xs = ys)
  | [], [] => .isTrue rfl
  | [], _ :: _ | _ :: _, [] => .isFalse nofun
  | (n, x) :: xs, (m, y) :: ys =>
    if hn : n = m then
      match decEq x y with
      | .isTrue h =>
        match decEqFields xs ys with
        | .isTrue hs => .isTrue (by rw [hn, h, hs])
        | .isFalse hs => .isFalse (by simp [hs])
      | .isFalse h => .isFalse (by simp [h])
    else .isFalse (by simp [hn])

end

instance : DecidableEq Json := decEq

def obj (entries : List (String × Json)) : Json := .object (Fields.ofList entries)

def get? : Json → String → Option Json
  | .object fields, name => Fields.get? fields name
  | _, _ => none

def isNull : Json → Bool
  | .null => true
  | _ => false

def asBool? : Json → Option Bool
  | .bool b => some b
  | _ => none

def asString? : Json → Option String
  | .string s => some s
  | _ => none

/-- A whole number that fits a signed 64-bit word. -/
def asInt64? : Json → Option Int
  | .int i => if -Int.pow 2 63 ≤ i ∧ i < Int.pow 2 63 then some i else none
  | _ => none

/-- A whole number that fits an unsigned 64-bit word. -/
def asUInt64? : Json → Option Nat
  | .int i => if 0 ≤ i ∧ i < Int.pow 2 64 then some i.toNat else none
  | _ => none

def asNumber? : Json → Option Binary64
  | .int i => some (Binary64.ofInt i)
  | .float x => some x
  | _ => none

def asArray? : Json → Option (List Json)
  | .array items => some items
  | _ => none

/-- A float as JSON, where only finite numbers can be written. -/
def ofBinary64 (x : Binary64) : Json := if x.isFinite then .float x else .null

def ofOption {α : Type} (f : α → Json) : Option α → Json
  | some a => f a
  | none => .null

def ofNat (n : Nat) : Json := .int n

mutual

/-- How deep lists and objects are nested. -/
def depth : Json → Nat
  | .array items => depthOfItems items + 1
  | .object fields => depthOfFields fields + 1
  | _ => 0

def depthOfItems : List Json → Nat
  | [] => 0
  | j :: rest => max (depth j) (depthOfItems rest)

def depthOfFields : List (String × Json) → Nat
  | [] => 0
  | (_, j) :: rest => max (depth j) (depthOfFields rest)

end

end Json
end DatabaseSession
