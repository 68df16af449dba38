import Mathlib.Logic.Function.Basic
import Mathlib.Data.List.Basic
import DatabaseSession.Event
import DatabaseSession.Proofs.Descriptors

namespace DatabaseSession

namespace Fields

/-- The fields that are there, of those that an object may have. -/
def present (slots : List (String × Option Json)) : Fields :=
  slots.filterMap fun s => s.2.map (Prod.mk s.1)

@[simp] theorem present_none (name : String) (slots : List (String × Option Json)) :
    present ((name, none) :: slots) = present slots := rfl

@[simp] theorem present_some (name : String) (value : Json)
    (slots : List (String × Option Json)) :
    present ((name, some value) :: slots) = (name, value) :: present slots := rfl

theorem mem_names_of_mem_present {slots : List (String × Option Json)} {f : String × Json}
    (h : f ∈ present slots) : f.1 ∈ slots.map Prod.fst := by
  obtain ⟨⟨name, value⟩, hs, hf⟩ := List.mem_filterMap.mp h
  obtain ⟨v, -, rfl⟩ := Option.map_eq_some_iff.mp hf
  exact List.mem_map_of_mem hs

theorem get?_foldl_insert_of_notMem {name : String} {entries : List (String × Json)}
    (h : ∀ f ∈ entries, f.1 ≠ name) (fields : Fields) :
    get? (entries.foldl (fun fs f => insert f.1 f.2 fs) fields) name = get? fields name := by
  induction entries generalizing fields with
  | nil => rfl
  | cons f entries ih =>
    rw [List.foldl_cons, ih (fun g hg => h g (List.mem_cons_of_mem f hg))]
    exact get?_insert_of_ne (h f List.mem_cons_self).symm _ _

theorem get?_foldl_insert_present {slots : List (String × Option Json)}
    (hnodup : (slots.map Prod.fst).Nodup) {name : String} {value : Option Json}
    (h : (name, value) ∈ slots) {fields : Fields} (hfree : get? fields name = none) :
    get? ((present slots).foldl (fun fs f => insert f.1 f.2 fs) fields) name = value := by
  induction slots generalizing fields with
  | nil => cases h
  | cons slot slots ih =>
    obtain ⟨n, o⟩ := slot
    obtain ⟨hfirst, hrest⟩ := List.nodup_cons.mp hnodup
    rcases List.mem_cons.mp h with heq | hmem
    · -- the field's own slot: the later ones have other names
      cases heq
      have hlater : ∀ f ∈ present slots, f.1 ≠ name := fun f hf hname =>
        hfirst (hname ▸ mem_names_of_mem_present hf)
      cases value with
      | none => rw [present_none, get?_foldl_insert_of_notMem hlater, hfree]
      | some v =>
        rw [present_some, List.foldl_cons, get?_foldl_insert_of_notMem hlater, get?_insert_self]
    · have hname : name ∈ slots.map Prod.fst := List.mem_map.mpr ⟨_, hmem, rfl⟩
      have hne : name ≠ n := fun he => hfirst (he ▸ hname)
      cases o with
      | none => exact ih hrest hmem hfree
      | some v => exact ih hrest hmem ((get?_insert_of_ne hne v fields).trans hfree)

end Fields

namespace Json

variable {slots slots' : List (String × Option Json)}

/-- An object whose fields have names of their own has each of them as it was given. -/
theorem get?_obj_present (hnodup : (slots.map Prod.fst).Nodup) {name : String}
    {value : Option Json} (h : (name, value) ∈ slots) :
    (obj (Fields.present slots)).get? name = value :=
  Fields.get?_foldl_insert_present hnodup h rfl

theorem eq_map_get?_obj_present (hnodup : (slots.map Prod.fst).Nodup) :
    slots = (slots.map Prod.fst).map fun n => (n, (obj (Fields.present slots)).get? n) := by
  rw [List.map_map]
  refine (List.map_id slots).symm.trans (List.map_congr_left fun s hs => ?_)
  exact Prod.ext rfl (get?_obj_present hnodup hs).symm

/-- Two objects with the same possible fields are equal only if the same ones are there, with the
same values. -/
theorem obj_present_inj {names : List String} (hnodup : names.Nodup)
    (hnames : slots.map Prod.fst = names) (hnames' : slots'.map Prod.fst = names) :
    obj (Fields.present slots) = obj (Fields.present slots') ↔ slots = slots' := by
  refine ⟨fun h => ?_, fun h => h ▸ rfl⟩
  have hslots := eq_map_get?_obj_present (hnames ▸ hnodup)
  have hslots' := eq_map_get?_obj_present (hnames' ▸ hnodup)
  rw [hslots, h, hnames, ← hnames', ← hslots']

theorem array_injective : Function.Injective array := fun _ _ h => by injection h

theorem string_injective : Function.Injective string := fun _ _ h => by injection h

theorem int_injective : Function.Injective int := fun _ _ h => by injection h

theorem ofNat_injective : Function.Injective ofNat := fun _ _ h => by
  injection h with h
  exact Int.ofNat.inj h

theorem ofOption_string_injective : Function.Injective (ofOption string) := by
  intro o o'
  cases o <;> cases o' <;> simp [ofOption]

theorem ofBinary64_inj {x y : Binary64} (hx : x.isFinite = true) (hy : y.isFinite = true) :
    ofBinary64 x = ofBinary64 y ↔ x = y := by
  simp [ofBinary64, hx, hy]

end Json

theorem Progress.name_injective : Function.Injective Progress.name := by
  intro a b
  cases a <;> cases b <;> simp [name]

theorem Origin.name_injective : Function.Injective Origin.name := by
  intro a b
  cases a <;> cases b <;> simp [name]

namespace Column

def slots (c : Column) : List (String × Option Json) :=
  [("name", some (.string c.name)), ("type", some (.string c.typeName)),
    ("length", c.length.map .ofNat)]

theorem nodup_names : ["name", "type", "length"].Nodup := by decide

theorem toJson_eq (c : Column) : c.toJson = .obj (Fields.present c.slots) := by
  rcases c with ⟨name, typeName, _ | n⟩ <;> rfl

theorem toJson_injective : Function.Injective Column.toJson := by
  intro c c' h
  rw [toJson_eq, toJson_eq, Json.obj_present_inj nodup_names rfl rfl] at h
  simp only [slots, List.cons.injEq, Prod.mk.injEq, Option.some.injEq, true_and, and_true,
    Json.string.injEq] at h
  obtain ⟨hname, htype, hlength⟩ := h
  cases c
  cases c'
  obtain rfl := Option.map_injective Json.ofNat_injective hlength
  cases hname
  cases htype
  rfl

theorem array_toJson_injective :
    Function.Injective fun cs : List Column => Json.array (cs.map toJson) :=
  Json.array_injective.comp (List.map_injective_iff.mpr toJson_injective)

end Column

namespace Chunk

def IsTimed (c : Chunk) : Prop := ∀ t, c.executionTime = some t → t.isFinite = true

theorem executionTime_inj {c c' : Chunk} (h : c.IsTimed) (h' : c'.IsTimed) :
    c.executionTime.map Json.ofBinary64 = c'.executionTime.map Json.ofBinary64 ↔
      c.executionTime = c'.executionTime := by
  refine ⟨fun heq => ?_, fun heq => heq ▸ rfl⟩
  cases ht : c.executionTime with
  | none => simpa [ht, eq_comm] using heq
  | some t =>
    rw [ht, Option.map_some] at heq
    obtain ⟨t', ht', heq⟩ := Option.map_eq_some_iff.mp heq.symm
    rw [ht', (Json.ofBinary64_inj (h' t' ht') (h t ht)).mp heq]

end Chunk

namespace EventData

def chunk? : EventData → Option Chunk
  | .rows c => some c
  | .result _ => none

def result? : EventData → Option Json
  | .rows _ => none
  | .result value => some value

end EventData

namespace Event

def stateSlots (e : Event) : List (String × Option Json) :=
  [("type", some (.string e.state.name)), ("msg", some (.string e.shownMessage)),
    ("source", e.error.map fun p => .string p.source.name),
    ("code", e.error.bind fun p => p.code.map .int),
    ("sqlstate", e.error.bind fun p => p.sqlstate.map .string)]

def stateNames : List String := ["type", "msg", "source", "code", "sqlstate"]

theorem stateJson_eq (e : Event) : e.stateJson = .obj (Fields.present e.stateSlots) := by
  rcases e with ⟨id, state, message, _ | ⟨text, source, _ | code, _ | sqlstate⟩, data⟩ <;> rfl

/-- The data fields, all those of a chunk and the one of a result. -/
def dataSlots (data : Option EventData) : List (String × Option Json) :=
  [("columns", (data.bind EventData.chunk?).bind fun c =>
      c.columns.map fun cs => .array (cs.map Column.toJson)),
    ("rows", (data.bind EventData.chunk?).map fun c => .array c.rows),
    ("total_row_count", (data.bind EventData.chunk?).map fun c => .ofNat c.totalRowCount),
    ("execution_time", (data.bind EventData.chunk?).bind fun c =>
      c.executionTime.map .ofBinary64),
    ("last_insert_id", (data.bind EventData.chunk?).bind fun c => c.lastInsertId.map .int),
    ("rows_affected", (data.bind EventData.chunk?).bind fun c => c.rowsAffected.map .ofNat),
    ("done", (data.bind EventData.chunk?).map fun c => .bool c.done),
    ("result", data.bind EventData.result?)]

def dataNames : List String :=
  ["columns", "rows", "total_row_count", "execution_time", "last_insert_id", "rows_affected",
    "done", "result"]

theorem dataFields_eq (e : Event) : e.dataFields = Fields.present (dataSlots e.data) := by
  rcases e with ⟨id, state, message, error,
    _ | ⟨_ | cs, rows, total, _ | t, _ | i, _ | n, done⟩ | value⟩ <;> rfl

/-- The whole document: two fields that are always there, and those of the data. -/
def slots (e : Event) : List (String × Option Json) :=
  ("request_id", some (.ofOption .string e.requestId)) ::
    ("request_state", some e.stateJson) :: dataSlots e.data

theorem toJson_eq (e : Event) : e.toJson = .obj (Fields.present e.slots) := by
  rw [toJson, dataFields_eq]
  rfl

def IsTimed (e : Event) : Prop := ∀ c, e.data = some (.rows c) → c.IsTimed

theorem stateJson_inj {e e' : Event} :
    e.stateJson = e'.stateJson ↔
      e.state = e'.state ∧ e.error = e'.error ∧ e.shownMessage = e'.shownMessage := by
  rw [stateJson_eq, stateJson_eq,
    Json.obj_present_inj (by decide : stateNames.Nodup) rfl rfl]
  constructor
  · intro h
    simp only [stateSlots, List.cons.injEq, Prod.mk.injEq, Option.some.injEq, true_and, and_true,
      Json.string.injEq] at h
    obtain ⟨hstate, hshown, hsource, hcode, hsqlstate⟩ := h
    refine ⟨Progress.name_injective hstate, ?_, hshown⟩
    rcases e with ⟨id, state, message, _ | ⟨text, source, code, sqlstate⟩, data⟩ <;>
      rcases e' with ⟨id', state', message', _ | ⟨text', source', code', sqlstate'⟩, data'⟩
    · rfl
    · cases hsource
    · cases hsource
    · obtain rfl : text = text' := hshown
      obtain rfl := Origin.name_injective (Json.string_injective (Option.some.inj hsource))
      obtain rfl := Option.map_injective Json.int_injective hcode
      obtain rfl := Option.map_injective Json.string_injective hsqlstate
      rfl
  · rintro ⟨hstate, herror, hshown⟩
    rw [stateSlots, stateSlots, hstate, herror, hshown]

theorem dataSlots_inj {data data' : Option EventData}
    (htimed : ∀ c, data = some (.rows c) → c.IsTimed)
    (htimed' : ∀ c, data' = some (.rows c) → c.IsTimed) :
    dataSlots data = dataSlots data' ↔ data = data' := by
  refine ⟨fun h => ?_, fun h => h ▸ rfl⟩
  simp only [dataSlots, List.cons.injEq, Prod.mk.injEq, true_and, and_true] at h
  obtain ⟨hcolumns, hrows, htotal, htime, hinsert, haffected, hdone, hresult⟩ := h
  rcases data with _ | c | value <;> rcases data' with _ | c' | value'
  -- the rows tell a chunk from everything else, the result tells a result
  case none.none => rfl
  case none.some.rows => cases hrows
  case none.some.result => cases hresult
  case some.rows.none => cases hrows
  case some.rows.some.result => cases hrows
  case some.result.none => cases hresult
  case some.result.some.rows => cases hrows
  case some.result.some.result => cases hresult; rfl
  case some.rows.some.rows =>
    have hcolumns := Option.map_injective Column.array_toJson_injective hcolumns
    have hrows := Json.array_injective (Option.some.inj hrows)
    have htotal := Json.ofNat_injective (Option.some.inj htotal)
    have htime := (Chunk.executionTime_inj (htimed c rfl) (htimed' c' rfl)).mp htime
    have hinsert := Option.map_injective Json.int_injective hinsert
    have haffected := Option.map_injective Json.ofNat_injective haffected
    have hdone : c.done = c'.done := Json.bool.inj (Option.some.inj hdone)
    cases c
    cases c'
    congr

def names : List String := "request_id" :: "request_state" :: dataNames

theorem nodup_names : names.Nodup := by decide

/-- Two events agree in all that a front end is shown. A message beside an error is not. -/
@[mk_iff]
structure Agree (e e' : Event) : Prop where
  requestId : e.requestId = e'.requestId
  state : e.state = e'.state
  error : e.error = e'.error
  shownMessage : e.shownMessage = e'.shownMessage
  data : e.data = e'.data

theorem toJson_inj {e e' : Event} (htimed : e.IsTimed) (htimed' : e'.IsTimed) :
    e.toJson = e'.toJson ↔ e.Agree e' := by
  rw [toJson_eq, toJson_eq, Json.obj_present_inj nodup_names rfl rfl, agree_iff]
  simp only [slots, List.cons.injEq, Prod.mk.injEq, Option.some.injEq, true_and,
    Json.ofOption_string_injective.eq_iff, stateJson_inj, dataSlots_inj htimed htimed', and_assoc]

end Event

/-! Documents may also be compared more coarsely, as when the two zeros count as one number. -/

section Floats

variable (f : Binary64 → Binary64)

namespace Json

mutual

/-- Puts `f x` for every float `x`. -/
def mapFloats : Json → Json
  | .null => .null
  | .bool b => .bool b
  | .int i => .int i
  | .float x => .float (f x)
  | .string s => .string s
  | .array items => .array (mapFloatsOfItems items)
  | .object fields => .object (mapFloatsOfFields fields)

def mapFloatsOfItems : List Json → List Json
  | [] => []
  | j :: rest => mapFloats j :: mapFloatsOfItems rest

def mapFloatsOfFields : List (String × Json) → List (String × Json)
  | [] => []
  | (n, j) :: rest => (n, mapFloats j) :: mapFloatsOfFields rest

end

theorem mapFloatsOfItems_eq (items : List Json) :
    mapFloatsOfItems f items = items.map (mapFloats f) := by
  induction items with
  | nil => simp [mapFloatsOfItems]
  | cons j items ih => simp [mapFloatsOfItems, ih]

theorem mapFloatsOfFields_insert (name : String) (value : Json) (fields : Fields) :
    mapFloatsOfFields f (Fields.insert name value fields) =
      Fields.insert name (mapFloats f value) (mapFloatsOfFields f fields) := by
  induction fields with
  | nil => simp [Fields.insert, mapFloatsOfFields]
  | cons field fields ih =>
    obtain ⟨n, v⟩ := field
    simp only [Fields.insert, mapFloatsOfFields]
    split
    · simp [mapFloatsOfFields]
    · split <;> simp [mapFloatsOfFields, ih]

theorem mapFloats_obj (entries : List (String × Json)) :
    mapFloats f (obj entries) = obj (entries.map fun e => (e.1, mapFloats f e.2)) := by
  have hfold : ∀ fields : Fields,
      mapFloatsOfFields f (entries.foldl (fun fs e => Fields.insert e.1 e.2 fs) fields) =
        (entries.map fun e => (e.1, mapFloats f e.2)).foldl
          (fun fs e => Fields.insert e.1 e.2 fs) (mapFloatsOfFields f fields) := by
    induction entries with
    | nil => exact fun fields => rfl
    | cons e entries ih =>
      intro fields
      rw [List.foldl_cons, ih, mapFloatsOfFields_insert, List.map_cons, List.foldl_cons]
  simpa [obj, Fields.ofList, mapFloats, mapFloatsOfFields] using hfold []

theorem mapFloats_obj_present (slots : List (String × Option Json)) :
    mapFloats f (obj (Fields.present slots)) =
      obj (Fields.present (slots.map fun s => (s.1, s.2.map (mapFloats f)))) := by
  have hpresent : (Fields.present slots).map (fun e => (e.1, mapFloats f e.2)) =
      Fields.present (slots.map fun s => (s.1, s.2.map (mapFloats f))) := by
    rw [Fields.present, Fields.present, List.map_filterMap, List.filterMap_map]
    refine List.filterMap_congr fun s _ => ?_
    obtain ⟨n, _ | v⟩ := s <;> rfl
  rw [mapFloats_obj, hpresent]

@[simp] theorem mapFloats_string (s : String) : mapFloats f (.string s) = .string s := rfl

@[simp] theorem mapFloats_ofOption_string (o : Option String) :
    mapFloats f (ofOption .string o) = ofOption .string o := by
  cases o <;> rfl

end Json

@[simp] theorem Column.mapFloats_toJson (c : Column) : c.toJson.mapFloats f = c.toJson := by
  rw [toJson_eq, Json.mapFloats_obj_present]
  rcases c with ⟨name, typeName, _ | n⟩ <;> rfl

def Chunk.mapFloats (c : Chunk) : Chunk :=
  { c with rows := c.rows.map (Json.mapFloats f), executionTime := c.executionTime.map f }

def EventData.mapFloats : EventData → EventData
  | .rows c => .rows (c.mapFloats f)
  | .result value => .result (value.mapFloats f)

namespace Event

def mapFloats (e : Event) : Event := { e with data := e.data.map (EventData.mapFloats f) }

theorem mapFloats_stateJson (e : Event) : e.stateJson.mapFloats f = e.stateJson := by
  rw [stateJson_eq, Json.mapFloats_obj_present]
  rcases e with ⟨id, state, message, _ | ⟨text, source, _ | code, _ | sqlstate⟩, data⟩ <;> rfl

variable {f} (hf : ∀ x, (f x).isFinite = x.isFinite)
include hf

theorem mapFloats_ofBinary64 (x : Binary64) :
    (Json.ofBinary64 x).mapFloats f = Json.ofBinary64 (f x) := by
  unfold Json.ofBinary64
  rw [hf]
  split <;> rfl

theorem dataSlots_mapFloats (data : Option EventData) :
    dataSlots (data.map (EventData.mapFloats f)) =
      (dataSlots data).map fun s => (s.1, s.2.map (Json.mapFloats f)) := by
  rcases data with _ | c | value
  · rfl
  · simp only [dataSlots, Option.map_some, Option.bind_some, EventData.mapFloats, EventData.chunk?,
      EventData.result?, Chunk.mapFloats, List.map_cons, List.map_nil, Option.map_map,
      Option.map_none, Function.comp_def, Json.ofNat, Json.mapFloats, Json.mapFloatsOfItems_eq,
      List.map_map, Column.mapFloats_toJson, mapFloats_ofBinary64 hf]
    rfl
  · rfl

theorem toJson_mapFloats (e : Event) : (e.mapFloats f).toJson = e.toJson.mapFloats f := by
  rw [toJson_eq, toJson_eq, Json.mapFloats_obj_present, slots, slots, List.map_cons, List.map_cons,
    ← dataSlots_mapFloats hf]
  simp only [Option.map_some, Json.mapFloats_ofOption_string, mapFloats_stateJson]
  rfl

theorem IsTimed.mapFloats {e : Event} (h : e.IsTimed) : (e.mapFloats f).IsTimed := by
  intro c hc t ht
  obtain ⟨c₀ | value, hdata, hmap⟩ := Option.map_eq_some_iff.mp hc
  · cases hmap
    obtain ⟨t₀, ht₀, rfl⟩ := Option.map_eq_some_iff.mp ht
    rw [hf]
    exact h c₀ hdata t₀ ht₀
  · cases hmap

omit hf in
/-- A document tells all that its event shows, wherever the time can be written, and also if
floats are compared only up to `f`, as when the two zeros count as one. No field of the data has
the name of one of the two that every document has. -/
theorem toJson_lossless :
    (∀ e e' : Event, e.IsTimed → e'.IsTimed → (e.toJson = e'.toJson ↔ e.Agree e')) ∧
    (∀ f : Binary64 → Binary64, (∀ x, (f x).isFinite = x.isFinite) →
      ∀ e e' : Event, e.IsTimed → e'.IsTimed →
        (e.toJson.mapFloats f = e'.toJson.mapFloats f ↔
          (e.mapFloats f).Agree (e'.mapFloats f))) ∧
    ∀ e : Event, e.toJson.get? "request_id" = some (.ofOption .string e.requestId) ∧
      e.toJson.get? "request_state" = some e.stateJson ∧
      ∀ field ∈ e.dataFields, field.1 ≠ "request_id" ∧ field.1 ≠ "request_state" := by
  refine ⟨fun e e' => toJson_inj, fun f hf e e' h h' => ?_, fun e => ?_⟩
  · rw [← toJson_mapFloats hf, ← toJson_mapFloats hf]
    exact toJson_inj (h.mapFloats hf) (h'.mapFloats hf)
  · have hnodup : (e.slots.map Prod.fst).Nodup := nodup_names
    rw [toJson_eq]
    refine ⟨Json.get?_obj_present hnodup (by simp [slots]),
      Json.get?_obj_present hnodup (by simp [slots]), fun field hfield => ?_⟩
    rw [dataFields_eq] at hfield
    have hname : field.1 ∈ dataNames := Fields.mem_names_of_mem_present hfield
    exact ⟨fun h => absurd (h ▸ hname) (by decide), fun h => absurd (h ▸ hname) (by decide)⟩

end Event

end Floats

def Binary64.unsignZero (x : Binary64) : Binary64 := if x.isZero then ⟨0⟩ else x

theorem Binary64.isFinite_unsignZero (x : Binary64) : x.unsignZero.isFinite = x.isFinite := by
  unfold unsignZero
  split
  · next hzero =>
    rw [isFinite, isFinite, ((isZero_iff x).mp hzero).1]
    decide
  · rfl

namespace Event

/-- The first chunk of a result set that was read in no time, on one side of zero or the other. -/
def instant (zero : Binary64) : Event where
  requestId := some "r1"
  state := .pending
  data := some (.rows {
    columns := some [⟨"id", "INTEGER", none⟩]
    rows := [.array [.int 1]]
    totalRowCount := 1
    executionTime := some zero })

theorem toJson_lossless_instant :
    (instant ⟨0⟩).toJson ≠ (instant ⟨0x8000000000000000⟩).toJson ∧
      (instant ⟨0⟩).toJson.mapFloats .unsignZero =
        (instant ⟨0x8000000000000000⟩).toJson.mapFloats .unsignZero ∧
      ("done", .bool false) ∈ (instant ⟨0⟩).dataFields ∧ "done" ≠ "request_state" := by
  obtain ⟨hexact, hcoarse, hkept⟩ := toJson_lossless
  have htimed : (instant ⟨0⟩).IsTimed := by
    rintro c ⟨⟩ t ⟨⟩
    decide
  have htimed' : (instant ⟨0x8000000000000000⟩).IsTimed := by
    rintro c ⟨⟩ t ⟨⟩
    decide
  have hdone : ("done", .bool false) ∈ (instant ⟨0⟩).dataFields := by decide
  refine ⟨fun h => ?_, ?_, hdone, ((hkept _).2.2 _ hdone).2⟩
  · have hdata := ((hexact _ _ htimed htimed').mp h).data
    exact absurd hdata (by decide)
  · exact (hcoarse _ Binary64.isFinite_unsignZero _ _ htimed htimed').mpr
      ⟨rfl, rfl, rfl, rfl, by decide⟩

end Event

end DatabaseSession
