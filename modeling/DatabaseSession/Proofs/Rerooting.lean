import Mathlib.Data.List.Nodup
import DatabaseSession.Sqlite.Layout

namespace DatabaseSession.Sqlite.Layout

variable {l r l' r' : Layout} {schema : String} {schemas : List String}

def Distinct (l : Layout) : Prop := (l.databases.map Database.name).Nodup

instance : Decidable l.Distinct := inferInstanceAs (Decidable (List.Nodup _))

/-- The database of that name is brought to the front, past those before it. -/
def BroughtForward (schema : String) (ds ds' : List Database) : Prop :=
  ∃ before d after, ds = before ++ d :: after ∧ d.name = schema ∧ ds' = d :: (before ++ after)

theorem BroughtForward.perm {ds ds' : List Database} (h : BroughtForward schema ds ds') :
    ds'.Perm ds := by
  obtain ⟨before, d, after, rfl, -, rfl⟩ := h
  exact List.perm_middle.symm

theorem exists_split_of_holds (h : l.holds schema = true) :
    ∃ before d after, l.databases = before ++ d :: after ∧ d.name = schema := by
  obtain ⟨d, hd, hname⟩ := List.any_eq_true.mp h
  obtain ⟨before, after, hsplit⟩ := List.append_of_mem hd
  exact ⟨before, d, after, hsplit, of_decide_eq_true hname⟩

theorem withMain_of_split (hl : l.Distinct) {before after : List Database} {d : Database}
    (hsplit : l.databases = before ++ d :: after) :
    l.withMain d.name =
      some { l with path := d.path, name := d.name, attachments := before ++ after } := by
  rw [Distinct, hsplit, List.map_append, List.map_cons, List.nodup_middle, List.nodup_cons,
    ← List.map_append] at hl
  have hothers : ∀ e ∈ before ++ after, e.name ≠ d.name :=
    fun e he hname => hl.1 (List.mem_map.mpr ⟨e, he, hname⟩)
  have hfind : l.databases.find? (fun e => e.name = d.name) = some d := by
    rw [hsplit, List.find?_eq_some_iff_append]
    refine ⟨by simp, before, after, rfl, fun e he => ?_⟩
    simpa using hothers e (List.mem_append_left _ he)
  have hfilter : l.databases.filter (fun e => e.name ≠ d.name) = before ++ after := by
    have hkept := List.filter_eq_self.mpr fun e he => decide_eq_true (hothers e he)
    rw [List.filter_append] at hkept
    simpa [hsplit] using hkept
  rw [withMain, hfind, hfilter]
  rfl

theorem eq_of_databases (hdatabases : r.databases = r'.databases) (hflags : r.flags = r'.flags)
    (hbusy : r.busyTimeout = r'.busyTimeout) : r = r' := by
  cases r
  cases r'
  simp_all [databases, main]

/-- A layout is the one with that schema as its main database just if that one database is brought
forward, and nothing else changes. -/
theorem withMain_eq_some_iff (hl : l.Distinct) :
    l.withMain schema = some r ↔ BroughtForward schema l.databases r.databases ∧
      r.flags = l.flags ∧ r.busyTimeout = l.busyTimeout := by
  constructor
  · intro h
    have hholds : l.holds schema = true := by rw [← withMain_isSome, h]; rfl
    obtain ⟨before, d, after, hsplit, rfl⟩ := exists_split_of_holds hholds
    obtain rfl := Option.some.inj ((withMain_of_split hl hsplit).symm.trans h)
    exact ⟨⟨before, d, after, hsplit, rfl, rfl⟩, rfl, rfl⟩
  · rintro ⟨⟨before, d, after, hsplit, rfl, hr⟩, hflags, hbusy⟩
    rw [withMain_of_split hl hsplit]
    apply congrArg some
    exact eq_of_databases hr.symm hflags.symm hbusy.symm

theorem withMain_name (hl : l.Distinct) : l.withMain l.name = some l :=
  (withMain_eq_some_iff hl).mpr ⟨⟨[], l.main, l.attachments, rfl, rfl, rfl⟩, rfl, rfl⟩

/-- The same databases in any order, opened in the same way. -/
structure Rearranges (l r : Layout) : Prop where
  databases : r.databases.Perm l.databases
  flags : r.flags = l.flags
  busyTimeout : r.busyTimeout = l.busyTimeout

namespace Rearranges

theorem refl (l : Layout) : Rearranges l l := ⟨.refl _, rfl, rfl⟩

theorem symm (h : Rearranges l r) : Rearranges r l :=
  ⟨h.databases.symm, h.flags.symm, h.busyTimeout.symm⟩

theorem trans (h : Rearranges l r) (h' : Rearranges r r') : Rearranges l r' :=
  ⟨h'.databases.trans h.databases, h'.flags.trans h.flags, h'.busyTimeout.trans h.busyTimeout⟩

theorem distinct (h : Rearranges l r) (hl : l.Distinct) : r.Distinct :=
  (h.databases.map Database.name).nodup_iff.mpr hl

theorem holds_eq (h : Rearranges l r) (schema : String) : r.holds schema = l.holds schema :=
  h.databases.any_eq

end Rearranges

theorem rearranges_of_withMain (hl : l.Distinct) (h : l.withMain schema = some r) :
    Rearranges l r := by
  obtain ⟨hforward, hflags, hbusy⟩ := (withMain_eq_some_iff hl).mp h
  exact ⟨hforward.perm, hflags, hbusy⟩

/-- The layouts differ at most in the order of their attachments. -/
structure Like (l r : Layout) : Prop where
  main : r.main = l.main
  attachments : r.attachments.Perm l.attachments
  flags : r.flags = l.flags
  busyTimeout : r.busyTimeout = l.busyTimeout

theorem Rearranges.like (h : Rearranges l r) (hmain : r.main = l.main) : Like l r := by
  have hperm := h.databases
  rw [Layout.databases, Layout.databases, hmain] at hperm
  exact ⟨hmain, hperm.cons_inv, h.flags, h.busyTimeout⟩

/-- How the databases were arranged before is forgotten, but for the order of the others. -/
theorem Rearranges.withMain (h : Rearranges l r) (hl : l.Distinct)
    (hl' : l.withMain schema = some l') (hr' : r.withMain schema = some r') : Like l' r' := by
  have hall : Rearranges l' r' := (rearranges_of_withMain hl hl').symm.trans
    (h.trans (rearranges_of_withMain (h.distinct hl) hr'))
  obtain ⟨d, hd, hname, hdatabases⟩ := databases_withMain hl'
  obtain ⟨e, he, hname', hdatabases'⟩ := databases_withMain hr'
  -- a name stands for one database, wherever it is in the list
  have hsame : e = d :=
    List.inj_on_of_nodup_map hl (h.databases.mem_iff.mp he) hd (hname'.trans hname.symm)
  apply hall.like
  rw [(List.cons.inj hdatabases').1, (List.cons.inj hdatabases).1, hsame]

/-- One schema after the other is made the main database. -/
def switched (l : Layout) (schemas : List String) : Option Layout := schemas.foldlM withMain l

theorem switched_cons (l : Layout) (schema : String) (schemas : List String) :
    l.switched (schema :: schemas) = (l.withMain schema).bind fun r => r.switched schemas :=
  List.foldlM_cons

theorem switched_append_singleton (l : Layout) (schemas : List String) (schema : String) :
    l.switched (schemas ++ [schema]) = (l.switched schemas).bind fun r => r.withMain schema := by
  simp [switched]

theorem rearranges_of_switched (hl : l.Distinct) (h : l.switched schemas = some r) :
    Rearranges l r := by
  induction schemas generalizing l with
  | nil =>
    obtain rfl := Option.some.inj h
    exact .refl l
  | cons schema schemas ih =>
    rw [switched_cons] at h
    obtain ⟨m, hm, hrest⟩ := Option.bind_eq_some_iff.mp h
    have hfirst := rearranges_of_withMain hl hm
    exact hfirst.trans (ih (hfirst.distinct hl) hrest)

theorem switched_isSome_iff (hl : l.Distinct) :
    (l.switched schemas).isSome = true ↔ ∀ schema ∈ schemas, l.holds schema = true := by
  induction schemas generalizing l with
  | nil => simp [switched]
  | cons schema schemas ih =>
    rw [switched_cons, List.forall_mem_cons, ← withMain_isSome]
    cases hm : l.withMain schema with
    | none => simp
    | some m =>
      -- a switch keeps every database, so what can be switched to stays the same
      have hfirst := rearranges_of_withMain hl hm
      simp [ih (hfirst.distinct hl), hfirst.holds_eq]

theorem like_of_switched (hl : l.Distinct) {others : List String}
    (hr : l.switched (schemas ++ [schema]) = some r)
    (hr' : l.switched (others ++ [schema]) = some r') : Like r r' := by
  rw [switched_append_singleton] at hr hr'
  obtain ⟨m, hm, hlast⟩ := Option.bind_eq_some_iff.mp hr
  obtain ⟨m', hm', hlast'⟩ := Option.bind_eq_some_iff.mp hr'
  have hleft := rearranges_of_switched hl hm
  have hright := rearranges_of_switched hl hm'
  exact (hleft.symm.trans hright).withMain (hleft.distinct hl) hlast hlast'

theorem withMain_after_withMain (hl : l.Distinct) {a b : String} (ha : l.holds a = true)
    (hb : l.holds b = true) :
    ∃ r m r', l.withMain b = some r ∧ l.withMain a = some m ∧ m.withMain b = some r' ∧
      Like r r' := by
  rw [← withMain_isSome] at ha
  obtain ⟨m, hm⟩ := Option.isSome_iff_exists.mp ha
  have hfirst := rearranges_of_withMain hl hm
  have hb' : m.holds b = true := (hfirst.holds_eq b).trans hb
  rw [← withMain_isSome] at hb hb'
  obtain ⟨r, hr⟩ := Option.isSome_iff_exists.mp hb
  obtain ⟨r', hr'⟩ := Option.isSome_iff_exists.mp hb'
  exact ⟨r, m, r', hr, hm, hr', hfirst.withMain hl hr hr'⟩

/-- If no two databases have the same name, any of them can be made the main one. That brings it
forward past the others and changes nothing else, and after many switches only the last is seen,
apart from the order of the attachments. -/
theorem withMain_reroots (hl : l.Distinct) :
    (∀ a, (l.withMain a).isSome = true ↔ l.holds a = true) ∧
      (∀ a r, l.withMain a = some r ↔ BroughtForward a l.databases r.databases ∧
        r.flags = l.flags ∧ r.busyTimeout = l.busyTimeout) ∧
      (∀ a r, l.withMain a = some r → r.databases.Perm l.databases) ∧
      l.withMain l.name = some l ∧
      (∀ a b, l.holds a = true → l.holds b = true →
        ∃ r m r', l.withMain b = some r ∧ l.withMain a = some m ∧ m.withMain b = some r' ∧
          Like r r') ∧
      (∀ schemas, (l.switched schemas).isSome = true ↔ ∀ a ∈ schemas, l.holds a = true) ∧
      ∀ schemas others b r r', l.switched (schemas ++ [b]) = some r →
        l.switched (others ++ [b]) = some r' → Like r r' := by
  refine ⟨fun a => ?_, fun a r => withMain_eq_some_iff hl, fun a r h => ?_, withMain_name hl,
    fun a b => withMain_after_withMain hl, fun schemas => switched_isSome_iff hl,
    fun schemas others b r r' => like_of_switched hl⟩
  · rw [withMain_isSome]
  · exact (rearranges_of_withMain hl h).databases

def threefold : Layout :=
  { path := "a.db", name := "a", attachments := [⟨"b", "b.db"⟩, ⟨"c", "c.db"⟩], flags := .reading }

theorem withMain_reroots_threefold :
    threefold.Distinct ∧ ∃ r r', threefold.withMain "c" = some r ∧
      threefold.switched ["b", "c"] = some r' ∧ r ≠ r' ∧ Like r r' := by
  have hdistinct : threefold.Distinct := by decide +kernel
  have hdiffer : threefold.withMain "c" ≠ threefold.switched ["b", "c"] := by decide +kernel
  obtain ⟨hsome, -, -, -, -, hall, hlast⟩ := withMain_reroots hdistinct
  obtain ⟨r, hr⟩ := Option.isSome_iff_exists.mp ((hsome "c").mpr (by decide +kernel))
  obtain ⟨r', hr'⟩ := Option.isSome_iff_exists.mp ((hall ["b", "c"]).mpr (by decide +kernel))
  refine ⟨hdistinct, r, r', hr, hr', ?_, ?_⟩
  · rintro rfl
    exact hdiffer (hr.trans hr'.symm)
  · exact hlast [] ["b"] "c" r r' (by rw [List.nil_append, switched_cons, hr]; rfl) hr'

end DatabaseSession.Sqlite.Layout
