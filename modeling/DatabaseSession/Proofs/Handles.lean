import DatabaseSession.Proofs.Watches

namespace DatabaseSession.Sqlite

open Play Library

variable {lam α β : Type}

namespace Library

/-- By the log, this is in use. -/
def Held (c : Custody) (l : List Use × lam) : Prop := Custody.after {} l.1 = some c

theorem after_concat {c c' : Custody} {log : List Use} {use : Use}
    (h : Custody.after {} log = some c) (hnext : c.next use = some c') :
    Custody.after {} (log ++ [use]) = some c' := by
  rw [Custody.after_append, h]
  simp [Custody.after, hnext]

theorem Held.append {c c' : Custody} {l : List Use × lam} (h : Held c l) {use : Use} {x : lam}
    (hnext : c.next use = some c') : Held c' (l.1 ++ [use], x) :=
  after_concat h hnext

/-- Others do nothing but what leaves this handle in use, and its statement. -/
def Undisturbed (db : Nat) (l l' : List Use × lam) : Prop :=
  ∀ st, Held ⟨some db, st⟩ l → Held ⟨some db, st⟩ l'

/-- Where the library fails to prepare, it yields no statement. -/
def Careful (lib : Library lam) : Prop := ∀ db text l,
  (lib.prepare db text l).1.code ≠ okCode → (lib.prepare db text l).1.statement = none

theorem Use.Within.next {db : Nat} {st : Option Nat} {u : Use} (h : u.Within db st) :
    Custody.next ⟨some db, st⟩ u = some ⟨some db, st⟩ := by
  obtain ⟨hplain, hhandle, hstatement⟩ := h
  have hlive : (∀ h ∈ u.handle?, some db = some h) ∧ ∀ s ∈ u.statement?, st = some s :=
    ⟨fun h hh => congrArg some (hhandle h hh).symm, hstatement⟩
  cases u with
  | openFile | close | prepare | finalize => cases hplain
  | _ => exact if_pos hlive

theorem next_prepare (db : Nat) (text : List UInt8) (r : Prepared) :
    Custody.next ⟨some db, none⟩ (.prepare db text r) = some ⟨some db, r.statement⟩ := by
  cases hs : r.statement <;> simp [Custody.next, hs]

/-- The handle and the statement of a cursor are what is in use. -/
def custody {lib : Library lam} (hlib : lib.Careful) (db : Nat) :
    Watch lib db (Undisturbed db) where
  Holds _ _ st log := Custody.after {} log = some ⟨some db, st⟩
  others h hothers := hothers _ h
  call h hu := after_concat h hu.next
  finalized h := after_concat h (by simp [Custody.next])
  prepared h _ _ := after_concat h (next_prepare _ _ _)
  refused := by
    intro text o r x l h hprep hfailed
    have hnone := hlib db (text.drop o) l.2
    rw [hprep] at hnone
    have hafter := after_concat h (next_prepare db (text.drop o) r)
    rwa [hnone hfailed] at hafter

variable (lib : Library lam)

theorem openFile_held {l : List Use × lam} (hl : Held {} l) (path : String) (flags : Nat) :
    ∃ code db l', lib.logged.openFile path flags l = ((code, db), l') ∧ Held ⟨db, none⟩ l' := by
  refine ⟨_, _, _, rfl, hl.append ?_⟩
  cases hdb : (lib.openFile path flags l.2).1.2 <;> simp [Custody.next, hdb]

end Library

namespace Cursor

variable {lib : Library lam} {db : Nat}

structure Owns (db : Nat) (st : Option Nat) (w : Cursor × (List Use × lam)) : Prop where
  handle : w.1.db = db
  statement : w.1.statement = st
  held : Held ⟨some db, st⟩ w.2

def Runs (db : Nat) (w : Cursor × (List Use × lam)) : Prop := ∃ st, Owns db st w

def Undisturbed (db : Nat) (w w' : Cursor × (List Use × lam)) : Prop :=
  w'.1 = w.1 ∧ Library.Undisturbed db w.2 w'.2

/-- A move that keeps to every watch keeps to what is in use. -/
theorem keeps_of_watched (hlib : lib.Careful) {m : Move (List Use × lam) α}
    (h : Keeps (LetBe (Library.Undisturbed db)) (fun w => ∃ st, Watched (custody hlib db) st w) m) :
    Keeps (Undisturbed db) (Runs db) m :=
  Leads.mono h (fun _ ⟨st, hw⟩ => ⟨st, hw.handle, hw.statement, hw.held⟩)
    fun _ ⟨st, hw⟩ => ⟨st, hw.handle, hw.statement, hw.holds⟩

theorem keeps_advance (hlib : lib.Careful) :
    Keeps (Undisturbed db) (Runs db) (advance lib.logged) :=
  keeps_of_watched hlib watched_advance

theorem keeps_fetch (hlib : lib.Careful) : Keeps (Undisturbed db) (Runs db) (fetch lib.logged) := by
  refine keeps_of_watched hlib ?_
  rintro w ⟨st, hw⟩
  exact (watched_fetch.mono (fun _ h => h) fun _ h => ⟨st, h⟩) w hw

end Cursor
end DatabaseSession.Sqlite
