import DatabaseSession.Session
import DatabaseSession.Text.Quoted

namespace DatabaseSession

/-- Backends by name, each with what it takes to construct one. -/
structure Catalog (κ : Type) where
  /-- In the order of the names, each of which occurs once. -/
  backends : List (String × κ) := []
  /-- What an empty catalog registers when it is first consulted. -/
  initializer : Option (List (String × κ)) := none
  initialized : Bool := false

namespace Catalog

variable {κ : Type}

/-- A later registration under a name takes the place of an earlier one. -/
def insert (name : String) (k : κ) : List (String × κ) → List (String × κ)
  | [] => [(name, k)]
  | (n, l) :: rest =>
    if name < n then (name, k) :: (n, l) :: rest
    else if name = n then (n, k) :: rest
    else (n, l) :: insert name k rest

def register (f : Catalog κ) (name : String) (k : κ) : Catalog κ :=
  { f with backends := insert name k f.backends }

/-- The initializer runs at most once, and only while nothing is registered. -/
def needsInitializer (f : Catalog κ) : Bool :=
  f.initializer.isSome && f.backends.isEmpty && !f.initialized

def consult (f : Catalog κ) : Catalog κ :=
  if f.needsInitializer then
    (f.initializer.getD []).foldl (fun f b => f.register b.1 b.2) { f with initialized := true }
  else f

def names (f : Catalog κ) : List String := f.backends.map (·.1)

def contains (f : Catalog κ) (name : String) : Bool := f.names.contains name

def get (f : Catalog κ) (name : String) : Except Error κ :=
  match f.backends.lookup name with
  | some k => .ok k
  | none => .error (.unregistered name)

def describe (f : Catalog κ) : String :=
  "SessionFactory \x7b session_types: ["
    ++ String.intercalate ", " (f.names.map Text.quoted) ++ "], .. \x7d"

end Catalog
end DatabaseSession
