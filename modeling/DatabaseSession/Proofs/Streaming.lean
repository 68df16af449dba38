import DatabaseSession.Proofs.Batches

namespace DatabaseSession.Query

open Run

variable {ω : Type} {p : Parties ω} {params : List Value} {supply : Supply p params}
variable {plan : List (String × Results)} {sets : List RowSet} {s : Session (Log × ω)}

def chunkEvent (requestId : Option String) (c : Chunk) : Event :=
  ⟨requestId, .pending, none, none, some (.rows c)⟩

/-- The event of a chunk that closes a result set; the last of all closes the task. -/
def closingEvent (requestId : Option String) (c : Chunk) : Event :=
  if c.done then
    ⟨requestId, .ok, some (Task.rowsTransferred c.totalRowCount), none, some (.rows c)⟩
  else chunkEvent requestId c

/-- The events of result sets, each given by its full chunks and its closing one. -/
def streamEvents (requestId : Option String) (streams : List (List Chunk × Chunk)) : List Event :=
  streams.flatMap fun stream =>
    stream.1.map (chunkEvent requestId) ++ [closingEvent requestId stream.2]

def Streams (k : Int) (sets : List (RowSet × Bool)) (streams : List (List Chunk × Chunk)) : Prop :=
  List.Forall₂ (fun set stream => Chunked k set.1 set.2 stream.1 stream.2) sets streams

theorem stream_leads (chunk : Chunk) (hs : supply.Ready plan sets s) :
    ∃ s', Task.stream p.logged chunk s = (.ok (), s') ∧
      supply.Leads plan sets [chunkEvent s.active.courier.requestId chunk] s s' := by
  obtain ⟨hupdate, hfirst⟩ := Supply.update_leads (f := fun t => { t with streamed := true })
    rfl rfl hs
  obtain ⟨s', new, hemit, hsends, hholds, hkill, hterm⟩ :=
    Supply.emit_holds .pending none (some (.rows chunk)) hfirst.ready
  refine ⟨s', ?_, hfirst.trans ⟨⟨hholds, hkill, hterm⟩, new, hsends⟩⟩
  rw [Task.stream, bind_of_ok hupdate, hemit]

theorem acceptRow_leads (q : Query) (hshape : q.shape = .rows) (columns : List Column)
    (r : Reading) (row : Row) (hs : supply.Ready plan sets s) :
    ∃ s', acceptRow p.logged q columns r row s = (.ok (r.next q.packetSize row), s') ∧
      supply.Leads plan sets
        ((r.sent q.packetSize columns).map (chunkEvent s.active.courier.requestId)) s s' := by
  unfold acceptRow
  rw [hshape]
  dsimp only
  by_cases hfull : 0 < q.packetSize ∧ q.packetSize ≤ r.buffer.size
  · have hnext : r.next q.packetSize row = _ := if_pos hfull
    have hsent : r.sent q.packetSize columns = [r.chunk columns] := if_pos hfull
    obtain ⟨s', hstream, hlead⟩ := stream_leads (r.chunk columns) hs
    refine ⟨s', ?_, by rw [hsent]; exact hlead⟩
    rw [if_pos hfull, hnext]
    have hwhole := bind_of_ok hstream fun _ => pure
      ({ r with first := false, buffer := #[row], total := r.total + 1 } : Reading)
    rw [Task.stream, bind_assoc] at hwhole
    exact hwhole
  · have hnext : r.next q.packetSize row = _ := if_neg hfull
    have hsent : r.sent q.packetSize columns = [] := if_neg hfull
    rw [if_neg hfull, hnext, hsent]
    exact ⟨s, rfl, hs, [], .silent (by simp) rfl rfl rfl (by simp [Log.taken])⟩

theorem readRows_leads (q : Query) (hshape : q.shape = .rows) (sql : String)
    (columns : List Column) (set : RowSet) {patience : Nat} (hlength : set.rows.length < patience)
    (r : Reading) (hs : supply.Ready plan (set :: sets) s) :
    ∃ s', readRows p.logged q sql columns patience r s =
        (.ok (r.readOff q.packetSize columns set.rows).2, s') ∧
      supply.Leads plan ({ set with rows := [] } :: sets)
        ((r.readOff q.packetSize columns set.rows).1.map
          (chunkEvent s.active.courier.requestId)) s s' := by
  obtain ⟨names, rows, stats⟩ := set
  -- one fetch for each row and one that finds none, so the patience lasts
  induction rows generalizing patience r s with
  | nil =>
    obtain ⟨patience, rfl⟩ : ∃ n, patience = n + 1 := ⟨patience - 1, by simp at hlength; omega⟩
    exact readRows_drained patience r hs
  | cons row rows ih =>
    obtain ⟨patience, rfl⟩ : ∃ n, patience = n + 1 := ⟨patience - 1, by simp at hlength; omega⟩
    obtain ⟨s₁, hlead, hfetched⟩ := readRows_goes_on patience r hs
    obtain ⟨s₂, haccept, hlead₂⟩ := acceptRow_leads q hshape columns r row hlead.ready
    obtain ⟨s', hrest, hlead'⟩ := ih (r.next q.packetSize row) (by simpa using hlength) hlead₂.ready
    refine ⟨s', hfetched.trans ((bind_of_ok haccept _).trans hrest), ?_⟩
    have hall := (hlead.trans hlead₂).trans hlead'
    rw [hlead₂.requestId, hlead.requestId] at hall
    simpa [Reading.readOff] using hall

def closingChunk (columns : List Column) (r : Reading) (stats : StatementStats)
    (elapsed : Duration) (final : Bool) : Chunk where
  columns := r.header columns
  rows := r.rows
  totalRowCount := r.total
  executionTime := some elapsed.toSeconds
  lastInsertId := stats.lastInsertId
  rowsAffected := some stats.rowsAffected
  done := final

theorem closeSet_sends (q : Query) (hshape : q.shape = .rows) (columns : List Column)
    (r : Reading) (stats : StatementStats) (elapsed : Duration) (final : Bool)
    (hs : supply.Ready plan sets s) :
    ∃ s' new, closeSet p.logged q columns r stats elapsed final s = (.ok (), s') ∧
      Task.Sends new [closingEvent s.active.courier.requestId
        (closingChunk columns r stats elapsed final)] s s' ∧
      (final = false → supply.Ready plan sets s') := by
  unfold closeSet
  cases final with
  | true =>
    rw [hshape]
    obtain ⟨s', new, hemit, hsends, -, -, -⟩ := Supply.emit_holds .ok
      (some (Task.rowsTransferred r.total))
      (some (.rows (closingChunk columns r stats elapsed true))) hs
    exact ⟨s', new, hemit, hsends, by simp⟩
  | false =>
    rw [hshape]
    obtain ⟨s', hstream, hlead⟩ := stream_leads (closingChunk columns r stats elapsed false) hs
    obtain ⟨new, hsends⟩ := hlead.sends
    exact ⟨s', new, hstream, hsends, fun _ => hlead.ready⟩

def Streamed (k : Int) (requestId : Option String) (set : RowSet) (final : Bool)
    (es : List Event) : Prop :=
  ∃ full closing, Chunked k set final full closing ∧
    es = full.map (chunkEvent requestId) ++ [closingEvent requestId closing]

theorem tells_streamed (q : Query) (supply : Supply p params) (k : Int) (hshape : q.shape = .rows)
    (hpacket : q.packetSize = k.toNat) : Tells q supply (Streamed k) := by
  intro sql last started patience plan set more s hrows hs
  obtain ⟨s₁, elapsed, hlead, hrun⟩ := readSets_until_close q sql last started patience
    (fun id => (Reading.readOff q.packetSize set.columns {} set.rows).1.map (chunkEvent id))
    (readRows_leads q hshape sql set.columns set hrows {}) hs
  obtain ⟨s', new', hclose, hclosing, hready⟩ := closeSet_sends q hshape set.columns
    (Reading.readOff q.packetSize set.columns {} set.rows).2 set.stats elapsed
    (last && more.isEmpty) hlead.ready
  obtain ⟨new, hsends⟩ := hlead.sends
  rw [hlead.requestId] at hclosing
  refine ⟨s', _, _, hrun.trans (bind_of_ok hclose _), ⟨_, _, ?_, rfl⟩, hsends.append hclosing,
    hready⟩
  rw [hpacket]
  exact chunked_readOff k set _ _ rfl rfl rfl rfl

theorem Tale.streams {k : Int} {id : Option String} {sets : List (RowSet × Bool)}
    {es : List Event} (h : Tale (Streamed k) id sets es) :
    ∃ streams, Streams k sets streams ∧ es = streamEvents id streams := by
  induction h with
  | nil => exact ⟨[], .nil, rfl⟩
  | cons hset _ ih =>
    obtain ⟨full, closing, hchunks, rfl⟩ := hset
    obtain ⟨streams, hstreams, rfl⟩ := ih
    exact ⟨(full, closing) :: streams, .cons hchunks hstreams, rfl⟩

/-- A query for rows whose statements succeed streams every result set of every statement. -/
theorem execute_streams (params : List Value) (supply : Supply p params) (k : Int)
    (hwork : s.active.work = .query
      { statements := plan.map Prod.fst, params, packetSize := packetOfInt k, shape := .rows })
    (hplan : plan ≠ []) (hwithin : Within p.patience plan) (hs : supply.Ready plan sets s) :
    ∃ s' new streams, Task.execute p.logged s = (.ok (), s') ∧
      Streams k (flagged true (plan.flatMap fun step => step.2.sets)) streams ∧
      Task.Sends new (Task.startEvent s.active.courier.requestId ::
        streamEvents s.active.courier.requestId streams) s s' := by
  obtain ⟨s', new, es, hrun, htale, hsends⟩ :=
    (tells_streamed _ supply k rfl rfl).execute hwork rfl hplan hwithin hs
  obtain ⟨streams, hstreams, rfl⟩ := htale.streams
  exact ⟨s', new, streams, hrun, hstreams, hsends⟩

/-- Parties over the results themselves: every statement yields what is planned for it. -/
def storehouse : Parties (List (String × Results) × List RowSet) where
  backend := {
    name := "storehouse"
    connect := fun _ => pure ()
    disconnect := pure ()
    release := pure ()
    isConnected := fun _ => true
    execute := fun _ _ w => match w.1 with
      | [] => .done (.error .hang) w
      | step :: plan => .done (.ok ()) (plan, step.2.sets)
    columns := fun w => .done (.ok ((w.2.head?.map RowSet.columns).getD [])) w
    fetchRow := fun w => match w.2 with
      | [] => .done (.ok none) w
      | set :: sets => .done (.ok set.rows.head?) (w.1, set.tail :: sets)
    nextResult := fun w => .done (.ok (!w.2.tail.isEmpty)) (w.1, w.2.tail)
    stats := fun w => .done (.ok ((w.2.head?.map RowSet.stats).getD {})) w
    ping := pure ()
    info := pure .null
    defaultSchema := pure none
    currentSchema := pure none
    setCurrentSchema := fun _ => pure ()
    interrupter := pure none
    dispose := pure () }
  post := fun _ _ w => w
  callback := fun _ _ => pure ()
  custom := fun _ => ⟨fun _ w => .done (.ok ()) w, pure (), fun _ => pure (), pure {}⟩
  interrupt := fun _ w => w
  clock := fun _ => 0
  patience := 100

def storehouseSupply (params : List Value) : Supply storehouse params where
  Holds plan sets w := w = (plan, sets)
  execute := by
    rintro sql results plan sets w rfl
    rfl
  columns := by
    rintro plan set sets w rfl
    exact ⟨rfl, rfl⟩
  fetchRow := by
    rintro plan set sets w rfl
    exact ⟨rfl, rfl⟩
  stats := by
    rintro plan set sets w rfl
    exact ⟨rfl, rfl⟩
  nextResult := by
    rintro plan set sets w rfl
    exact ⟨rfl, rfl⟩
  post := fun _ _ h => h
  callback := fun _ _ h => h

def labels : List Column :=
  [{ name := "id", typeName := "INTEGER" }, { name := "item", typeName := "TEXT" }]

def article (id : Int) (item : Value) : Row := ⟨labels, [.int id, item]⟩

/-- A statement without rows, and one with a set of five rows and a set of four. -/
def goods : List (String × Results) :=
  [("UPDATE stock SET item = NULL WHERE id = 4", { first := ⟨[], [], { rowsAffected := 1 }⟩ }),
    ("SELECT id, item FROM stock", {
      first := ⟨labels, [article 1 (.text "nail"), article 2 (.text "bolt"), article 3 (.text ""),
        article 4 .null, article 5 (.bytes [0, 255])], {}⟩
      more := [⟨labels, [article 6 (.text "nut"), article 7 (.bool true), article 8 .null,
        article 9 (.text "pin")], {}⟩] })]

def stocked : Session (Log × List (String × Results) × List RowSet) :=
  { Session.create "s1" "storehouse" {} {} ([], goods, []) with
    active := { work := .query { statements := goods.map Prod.fst, packetSize := packetOfInt 2 } } }

theorem execute_streams_goods :
    ∃ s' new streams, Task.execute storehouse.logged stocked = (.ok (), s') ∧
      Streams 2 (flagged true (goods.flatMap fun step => step.2.sets)) streams ∧
      Task.Sends new (Task.startEvent none :: streamEvents none streams) stocked s' :=
  execute_streams (p := storehouse) (s := stocked) [] (storehouseSupply []) 2 rfl (by simp [goods])
    (by simp [Within, goods, Results.sets, storehouse]) ⟨rfl, rfl, rfl⟩

end DatabaseSession.Query
