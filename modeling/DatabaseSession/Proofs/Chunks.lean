import Mathlib.Data.List.Forall2
import DatabaseSession.Task.Run

namespace DatabaseSession

structure RowSet where
  columns : List Column
  rows : List Row
  stats : StatementStats := {}

namespace Query

/-- How a result set is sent in chunks of `k` rows, or in one if `k` is not positive: the chunks
that are full, and the one that closes the set. -/
structure Chunked (k : Int) (set : RowSet) (final : Bool) (full : List Chunk) (last : Chunk) :
    Prop where
  unlimited : k ≤ 0 → full = []
  count : 0 < k → full.length = (set.rows.length + k.toNat - 1) / k.toNat - 1
  sizes : ∀ c ∈ full, c.rows.length = k.toNat
  totals : full.map Chunk.totalRowCount = (List.range full.length).map fun i => (i + 1) * k.toNat
  rest : 0 < set.rows.length → 1 ≤ last.rows.length ∧ (0 < k → last.rows.length ≤ k.toNat)
  nothing : set.rows = [] → last.rows = []
  total : last.totalRowCount = set.rows.length
  rows : (full ++ [last]).flatMap Chunk.rows = set.rows.map Row.toJson
  columns : (full ++ [last]).map Chunk.columns = some set.columns :: .replicate full.length none
  done : (full ++ [last]).map Chunk.done = .replicate full.length false ++ [final]

namespace Reading

def Full (k : Nat) (r : Reading) : Prop := 0 < k ∧ k ≤ r.buffer.size

instance (k : Nat) (r : Reading) : Decidable (Full k r) := inferInstanceAs (Decidable (_ ∧ _))

def chunk (r : Reading) (columns : List Column) : Chunk :=
  { columns := r.header columns, rows := r.rows, totalRowCount := r.total }

/-- What goes out when a further row comes. -/
def sent (k : Nat) (columns : List Column) (r : Reading) : List Chunk :=
  if r.Full k then [r.chunk columns] else []

/-- What is kept when a further row comes. -/
def next (k : Nat) (r : Reading) (row : Row) : Reading :=
  if r.Full k then { r with first := false, buffer := #[row], total := r.total + 1 }
  else { r with buffer := r.buffer.push row, total := r.total + 1 }

/-- All that goes out while these rows come, and what is kept in the end. -/
def readOff (k : Nat) (columns : List Column) : Reading → List Row → List Chunk × Reading
  | r, [] => ([], r)
  | r, row :: rows =>
    let (chunks, last) := readOff k columns (r.next k row) rows
    (r.sent k columns ++ chunks, last)

/-- After these rows have come and these chunks have gone out. The buffer is sent only once there
is a row beyond it, so it is empty only at the start. -/
structure After (k : Nat) (columns : List Column) (seen : List Row) (out : List Chunk)
    (r : Reading) : Prop where
  total : r.total = seen.length
  rows : out.flatMap Chunk.rows ++ r.rows = seen.map Row.toJson
  size : out.length * k + r.buffer.size = seen.length
  unlimited : k = 0 → out = []
  bound : 0 < k → r.buffer.size ≤ k
  nonempty : seen ≠ [] → 0 < r.buffer.size
  sizes : ∀ c ∈ out, c.rows.length = k
  totals : out.map Chunk.totalRowCount = (List.range out.length).map fun i => (i + 1) * k
  columns : out.map Chunk.columns ++ [r.header columns] = some columns :: .replicate out.length none
  done : out.map Chunk.done = .replicate out.length false

theorem After.start (k : Nat) (columns : List Column) : After k columns [] [] {} := by
  constructor <;> simp [Reading.rows, header]

theorem length_rows (r : Reading) : r.rows.length = r.buffer.size := by
  simp [rows]

variable {k : Nat} {columns : List Column} {seen : List Row} {out : List Chunk} {r : Reading}

theorem After.step (h : After k columns seen out r) (row : Row) :
    After k columns (seen ++ [row]) (out ++ r.sent k columns) (r.next k row) := by
  by_cases hfull : r.Full k
  · -- the buffer leaves as a chunk of exactly `k` rows, and the new row starts the next one
    have hsize : r.buffer.size = k := Nat.le_antisymm (h.bound hfull.1) hfull.2
    have hsent : r.sent k columns = [r.chunk columns] := if_pos hfull
    have hnext : r.next k row = { r with first := false, buffer := #[row], total := r.total + 1 } :=
      if_pos hfull
    have htotal : r.total = (out.length + 1) * k := by
      rw [h.total, ← h.size, hsize, Nat.succ_mul]
    rw [hsent, hnext]
    refine ⟨?_, ?_, ?_, ?_, ?_, ?_, ?_, ?_, ?_, ?_⟩
    · simp [h.total]
    · rw [List.map_append, ← h.rows]
      simp [Reading.rows, chunk]
    · rw [List.length_append, List.length_append, ← h.size, hsize]
      simp [Nat.succ_mul]
    · intro hk
      exact absurd hfull.1 (by omega)
    · intro hk
      exact hk
    · simp
    · intro c hc
      rcases List.mem_append.mp hc with hc | hc
      · exact h.sizes c hc
      · rw [List.mem_singleton.mp hc, chunk, length_rows, hsize]
    · rw [List.map_append, h.totals, List.length_append, List.length_singleton, List.range_succ]
      simp [chunk, htotal]
    · have hheader : (chunk r columns).columns = r.header columns := rfl
      rw [List.map_append, List.map_singleton, hheader, h.columns]
      simp [header, List.replicate_succ']
    · rw [List.map_append, h.done]
      simp [chunk, List.replicate_succ']
  · -- there is room for the row, and no chunk leaves
    have hsent : r.sent k columns = [] := if_neg hfull
    have hnext : r.next k row = { r with buffer := r.buffer.push row, total := r.total + 1 } :=
      if_neg hfull
    rw [hsent, hnext, List.append_nil]
    refine ⟨?_, ?_, ?_, h.unlimited, ?_, ?_, h.sizes, h.totals, h.columns, h.done⟩
    · simp [h.total]
    · rw [List.map_append, ← h.rows]
      simp [Reading.rows]
    · simp only [Array.size_push, List.length_append, List.length_singleton]
      rw [← h.size]
      omega
    · intro hk
      have hlt : ¬k ≤ r.buffer.size := fun hle => hfull ⟨hk, hle⟩
      simp only [Array.size_push]
      omega
    · simp

theorem After.readOff (h : After k columns seen out r) (rows : List Row) :
    After k columns (seen ++ rows) (out ++ (readOff k columns r rows).1)
      (readOff k columns r rows).2 := by
  induction rows generalizing seen out r with
  | nil => simpa [Reading.readOff] using h
  | cons row rows ih =>
    have hrest := ih (h.step row)
    simpa [Reading.readOff, List.append_assoc] using hrest

end Reading

/-- So many full chunks go before a last one of `b` rows. -/
theorem pred_ceil_div {a b k : Nat} (hk : 0 < k) (hb : b ≤ k) (hne : a * k + b ≠ 0 → 0 < b) :
    (a * k + b + k - 1) / k - 1 = a := by
  by_cases hz : a * k + b = 0
  · have ha : a = 0 := by
      rcases Nat.mul_eq_zero.mp (Nat.eq_zero_of_add_eq_zero_right hz) with h | h
      · exact h
      · omega
    rw [hz, ha, Nat.zero_add, Nat.div_eq_of_lt (by omega)]
  · have hpos := hne hz
    have hsum : a * k + b + k - 1 = b - 1 + (a + 1) * k := by
      rw [Nat.succ_mul]
      omega
    rw [hsum, Nat.add_mul_div_right _ _ hk, Nat.div_eq_of_lt (by omega)]
    omega

/-- The reading of a whole result set sends it in chunks. -/
theorem chunked_readOff (k : Int) (set : RowSet) (final : Bool) (last : Chunk)
    (hcolumns : last.columns =
      (Reading.readOff k.toNat set.columns {} set.rows).2.header set.columns)
    (hrows : last.rows = (Reading.readOff k.toNat set.columns {} set.rows).2.rows)
    (htotal : last.totalRowCount = (Reading.readOff k.toNat set.columns {} set.rows).2.total)
    (hdone : last.done = final) :
    Chunked k set final (Reading.readOff k.toNat set.columns {} set.rows).1 last := by
  have h := (Reading.After.start k.toNat set.columns).readOff set.rows
  rw [List.nil_append, List.nil_append] at h
  generalize Reading.readOff k.toNat set.columns {} set.rows = read at *
  obtain ⟨full, r⟩ := read
  have hlength : last.rows.length = r.buffer.size := by rw [hrows, Reading.length_rows]
  refine ⟨?_, ?_, h.sizes, h.totals, ?_, ?_, htotal.trans h.total, ?_, ?_, ?_⟩
  · intro hk
    exact h.unlimited (by omega)
  · -- what is left over after the full chunks fits into one more, and is nothing only if all is
    intro hk
    have hbound := h.bound (by omega)
    have hnonempty : full.length * k.toNat + r.buffer.size ≠ 0 → 0 < r.buffer.size := by
      intro hn
      apply h.nonempty
      intro he
      have hsize := h.size
      rw [he, List.length_nil] at hsize
      exact hn hsize
    rw [← h.size]
    exact (pred_ceil_div (by omega) hbound hnonempty).symm
  · intro hpos
    rw [hlength]
    refine ⟨h.nonempty (by intro he; simp [he] at hpos), fun hk => h.bound (by omega)⟩
  · intro he
    have hsize := h.size
    rw [he, List.length_nil] at hsize
    dsimp only at hsize
    exact List.length_eq_zero_iff.mp (by omega)
  · simpa [hrows] using h.rows
  · simpa [hcolumns] using h.columns
  · simpa [hdone] using h.done

end Query
end DatabaseSession
