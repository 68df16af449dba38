import DatabaseSession.Backend

namespace DatabaseSession.Sqlite

/-- The library's result codes that are told apart. -/
def okCode : Int := 0
def rangeCode : Int := 25
def rowCode : Int := 100
def doneCode : Int := 101

/-- The library's integers have 32 bits; what is beyond wraps around. -/
def int32 (i : Int) : Int := Int.bmod i (Nat.pow 2 32)

/-- A size of 64 bits from such an integer. -/
def size64 (i : Int) : Nat := (int32 i % Int.pow 2 64).toNat

/-- What `prepare` yields: a code, a statement if the text holds one, and how many bytes were
taken; none taken means all. -/
structure Prepared where
  code : Int
  statement : Option Nat
  taken : Option Nat
  deriving DecidableEq, Repr

/-- A parameter in the forms the library binds. -/
inductive Binding where
  | null
  | int (i : Int)
  | double (x : Binary64)
  | text (s : String)
  | blob (bs : List UInt8)
  deriving Repr

/-- A cell as the library reports it; text and blobs may come without a buffer. -/
inductive Cell where
  | int (i : Int)
  | double (x : Binary64)
  | text (bytes : Option (List UInt8))
  | blob (bytes : Option (List UInt8))
  | other
  deriving Repr

/-- The embedded engine over a state `lam` of its own. Handles and statements are numbers. -/
structure Library (lam : Type) where
  version : String
  errorString : Int → String
  /-- Opens a path with a word of flags. -/
  openFile : String → Nat → StateM lam (Int × Option Nat)
  close : Nat → StateM lam Unit
  errorMessage : Nat → StateM lam (List UInt8)
  errorCode : Nat → StateM lam Int
  /-- Sets how long the handle, if there is one, waits for a lock. -/
  busyTimeout : Option Nat → Nat → StateM lam Unit
  prepare : Nat → List UInt8 → StateM lam Prepared
  finalize : Nat → StateM lam Unit
  parameterCount : Nat → StateM lam Nat
  bind : Nat → Nat → Binding → StateM lam Int
  /-- The only call that may block. -/
  step : Nat → Play lam Int
  columnCount : Nat → StateM lam Nat
  columnName : Nat → Nat → StateM lam (Option (List UInt8))
  declaredType : Nat → Nat → StateM lam (Option (List UInt8))
  cell : Nat → Nat → StateM lam Cell
  changes : Nat → StateM lam Int
  totalChanges : Nat → StateM lam Int
  lastRowid : Nat → StateM lam Int
  interrupt : Nat → StateM lam Unit

end DatabaseSession.Sqlite
