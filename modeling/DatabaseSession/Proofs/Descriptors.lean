import DatabaseSession.Options

namespace DatabaseSession

theorem le_roundHalfEven (n d : Nat) : n / d ≤ roundHalfEven n d := by
  simp only [roundHalfEven]
  repeat' split
  all_goals omega

theorem roundHalfEven_le (n d : Nat) : roundHalfEven n d ≤ n / d + 1 := by
  simp only [roundHalfEven]
  repeat' split
  all_goals omega

namespace Binary64

theorem isZero_iff (x : Binary64) : x.isZero = true ↔ x.exponentField = 0 ∧ x.fraction = 0 := by
  simp only [isZero, decide_eq_true_eq, exponentField, fraction,
    show Nat.pow 2 63 = 9223372036854775808 by decide,
    show Nat.pow 2 52 = 4503599627370496 by decide]
  omega

theorem significand_lt (x : Binary64) : x.significand < Nat.pow 2 53 := by
  have hfraction : x.fraction < Nat.pow 2 52 := Nat.mod_lt _ (by decide)
  have hdouble : Nat.pow 2 53 = 2 * Nat.pow 2 52 := by decide
  unfold significand
  split <;> omega

theorem le_significand {x : Binary64} (h : x.binade ≠ 0) : Nat.pow 2 52 ≤ x.significand := by
  have hexp : x.exponentField ≠ 0 := by
    unfold binade at h
    omega
  rw [significand, if_neg hexp]
  exact Nat.le_add_right _ _

/-- With 53 bits to a significand, a number below `2 ^ (64 + e)` stays a gap of `2 ^ (11 + e)`
away from it. -/
theorem significand_gap {m b e : Nat} (hlt : m < Nat.pow 2 53) (hle : b ≠ 0 → Nat.pow 2 52 ≤ m)
    (h : m * Nat.pow 2 b < Nat.pow 2 64 * Nat.pow 2 e) :
    m * Nat.pow 2 b + 2048 * Nat.pow 2 e ≤ Nat.pow 2 64 * Nat.pow 2 e := by
  have hsplit : ∀ k, Nat.pow 2 (e + k) = Nat.pow 2 k * Nat.pow 2 e := fun k => by
    simp [Nat.pow_add, Nat.mul_comm]
  have hb : b ≤ e + 11 := by
    refine Nat.le_of_not_lt fun hlarge => Nat.not_le.mpr h ?_
    calc Nat.pow 2 64 * Nat.pow 2 e
        = Nat.pow 2 52 * Nat.pow 2 (e + 12) := by
          rw [hsplit, ← Nat.mul_assoc]
      _ ≤ m * Nat.pow 2 b :=
          Nat.mul_le_mul (hle (by omega)) (Nat.pow_le_pow_right (by decide) hlarge)
  calc m * Nat.pow 2 b + 2048 * Nat.pow 2 e
      ≤ (Nat.pow 2 53 - 1) * Nat.pow 2 (e + 11) + 2048 * Nat.pow 2 e :=
        Nat.add_le_add_right
          (Nat.mul_le_mul (Nat.le_pred_of_lt hlt) (Nat.pow_le_pow_right (by decide) hb)) _
    _ = Nat.pow 2 64 * Nat.pow 2 e := by
        rw [hsplit, ← Nat.mul_assoc, ← Nat.add_mul]

theorem exists_magnitude_eq (x : Binary64) :
    ∃ e, x.magnitude = (x.significand * Nat.pow 2 x.binade, Nat.pow 2 e) := ⟨1074, rfl⟩

theorem floorLog2_one {n : Nat} (h : n ≠ 0) : floorLog2 n 1 = Nat.log2 n := by
  have hle : Nat.pow 2 (Nat.log2 n) ≤ n := Nat.log2_self_le h
  have hlog : ((Nat.log2 n : Int) - Nat.log2 1) = Nat.log2 n := by
    rw [show Nat.log2 1 = 0 by decide]
    omega
  simp only [floorLog2, hlog, Int.toNat_natCast]
  refine if_pos ?_
  rw [Nat.one_mul, show (-(Nat.log2 n : Int)).toNat = 0 by omega]
  exact Nat.le_trans hle (Nat.le_of_eq (Nat.mul_one n).symm)

theorem isFinite_of_word {negative : Bool} {w : Nat} (h : w < 2047 * Nat.pow 2 52) :
    (⟨UInt64.ofNat (signBit negative + w)⟩ : Binary64).isFinite = true := by
  have hpow : Nat.pow 2 52 = 4503599627370496 := by decide
  have hsign : signBit negative = 0 ∨ signBit negative = 2048 * 4503599627370496 := by
    cases negative <;> decide
  rw [hpow] at h
  have hbits : signBit negative + w < 2 ^ 64 := by
    rcases hsign with hsign | hsign <;> omega
  simp only [isFinite, exponentField, UInt64.toNat_ofNat_of_lt' hbits, decide_eq_true_eq, hpow]
  rcases hsign with hsign | hsign <;> omega

theorem scaled_lt {n l : Nat} (h : n < Nat.pow 2 (l + 1)) :
    n * Nat.pow 2 (52 - l) / Nat.pow 2 (l - 52) < Nat.pow 2 53 := by
  have hpos : ∀ k, 0 < Nat.pow 2 k := fun k => Nat.pow_pos (by decide)
  rw [Nat.div_lt_iff_lt_mul (hpos _)]
  calc n * Nat.pow 2 (52 - l)
      < Nat.pow 2 (l + 1) * Nat.pow 2 (52 - l) := Nat.mul_lt_mul_of_pos_right h (hpos _)
    _ = Nat.pow 2 (l + 1 + (52 - l)) := (Nat.pow_add 2 _ _).symm
    _ = Nat.pow 2 (53 + (l - 52)) := by rw [show l + 1 + (52 - l) = 53 + (l - 52) by omega]
    _ = Nat.pow 2 53 * Nat.pow 2 (l - 52) := Nat.pow_add 2 _ _

theorem isFinite_ofInt {i : Int} (h : i.natAbs < Nat.pow 2 64) : (ofInt i).isFinite = true := by
  unfold ofInt ofRatio
  split
  · exact isFinite_of_word (w := 0) (by decide)
  · next hne =>
    have hlog : Nat.log2 i.natAbs < 64 := (Nat.log2_lt hne).mpr h
    have hscaled : i.natAbs * Nat.pow 2 (52 - Nat.log2 i.natAbs) /
        Nat.pow 2 (Nat.log2 i.natAbs - 52) < Nat.pow 2 53 := scaled_lt Nat.lt_log2_self
    simp only [floorLog2_one hne]
    generalize Nat.log2 i.natAbs = l at hlog hscaled
    rw [show max (-1074) ((l : Int) - 52) = (l : Int) - 52 by omega,
      show (-((l : Int) - 52)).toNat = 52 - l by omega,
      show ((l : Int) - 52).toNat = l - 52 by omega,
      show ((l : Int) - 52 + 1074).toNat = l + 1022 by omega, Nat.one_mul]
    have hround := roundHalfEven_le (i.natAbs * Nat.pow 2 (52 - l)) (Nat.pow 2 (l - 52))
    have hdouble : Nat.pow 2 53 = 2 * Nat.pow 2 52 := by decide
    have hpos : 0 < Nat.pow 2 52 := by decide
    have hword : (l + 1022) * Nat.pow 2 52 ≤ 1085 * Nat.pow 2 52 :=
      Nat.mul_le_mul_right _ (by omega)
    refine isFinite_of_word (Nat.lt_of_le_of_lt (Nat.min_le_left _ _) ?_)
    omega

end Binary64

namespace Duration

/-- Only numbers from `2 ^ 64` on are too long: none is so near below that it is rounded up. -/
theorem ofSeconds?_eq_none_iff {x : Binary64} (hx : x.isFinite = true) :
    ofSeconds? x = none ↔ Nat.pow 2 64 * x.magnitude.2 ≤ x.magnitude.1 := by
  -- doubles below the bound stay 2048 seconds away from it, so rounding does not reach it
  obtain ⟨hden, hgap⟩ : 0 < x.magnitude.2 ∧ (x.magnitude.1 < Nat.pow 2 64 * x.magnitude.2 →
      x.magnitude.1 + 2048 * x.magnitude.2 ≤ Nat.pow 2 64 * x.magnitude.2) := by
    obtain ⟨e, he⟩ := x.exists_magnitude_eq
    rw [he]
    exact ⟨Nat.pow_pos (by decide),
      Binary64.significand_gap x.significand_lt Binary64.le_significand⟩
  have hnone : ofSeconds? x = none ↔ Nat.pow 2 64 * nanosPerSecond ≤
      roundHalfEven (x.magnitude.1 * nanosPerSecond) x.magnitude.2 := by
    rw [← Nat.le_div_iff_mul_le (by decide), ofSeconds?, if_pos hx]
    rcases x.magnitude with ⟨num, den⟩
    dsimp only [ofNanos]
    rw [ite_eq_right_iff]
    simp
  generalize x.magnitude.1 = num, x.magnitude.2 = den at *
  rw [hnone]
  constructor
  · intro hround
    refine Nat.le_of_not_lt fun hlt => ?_
    have hscaled : num * nanosPerSecond + 2 * den ≤ Nat.pow 2 64 * nanosPerSecond * den := by
      have hgap := Nat.mul_le_mul_right nanosPerSecond (hgap hlt)
      rw [Nat.mul_right_comm]
      refine Nat.le_trans ?_ hgap
      unfold nanosPerSecond
      omega
    have hbelow : num * nanosPerSecond / den + 2 ≤ Nat.pow 2 64 * nanosPerSecond := by
      rw [← Nat.add_mul_div_right _ _ hden]
      exact Nat.div_le_of_le_mul (Nat.mul_comm _ den ▸ hscaled)
    have := roundHalfEven_le (num * nanosPerSecond) den
    omega
  · intro hlong
    refine Nat.le_trans ?_ (le_roundHalfEven _ _)
    rw [Nat.le_div_iff_mul_le hden]
    calc Nat.pow 2 64 * nanosPerSecond * den = Nat.pow 2 64 * den * nanosPerSecond := by ac_rfl
      _ ≤ num * nanosPerSecond := Nat.mul_le_mul_right _ hlong

end Duration

namespace Fields

theorem erase_insert (name : String) (value : Json) (fields : Fields) :
    erase (insert name value fields) name = erase fields name := by
  induction fields with
  | nil => simp [insert, erase]
  | cons f rest ih =>
    obtain ⟨n, v⟩ := f
    simp only [insert]
    split
    · simp [erase]
    · split
      · next h => simp [erase, h]
      · unfold erase at ih ⊢
        rw [List.filter_cons, List.filter_cons, ih]

theorem erase_comm (fields : Fields) (a b : String) :
    erase (erase fields a) b = erase (erase fields b) a := by
  simp only [erase, List.filter_filter, Bool.and_comm]

theorem erase_eq_self {fields : Fields} {name : String} (h : ∀ f ∈ fields, f.1 ≠ name) :
    erase fields name = fields :=
  List.filter_eq_self.mpr fun f hf => by simpa using h f hf

theorem get?_eq_none {fields : Fields} {name : String} (h : ∀ f ∈ fields, f.1 ≠ name) :
    get? fields name = none := by
  simpa [get?] using h

end Fields

/-- A number as JSON has it: a whole one fits 64 bits, with a sign or without, and a float is
finite. -/
def Json.IsPlain : Json → Prop
  | .int i => -Int.pow 2 63 ≤ i ∧ i < Int.pow 2 64
  | .float x => x.isFinite = true
  | _ => True

theorem Json.isFinite_of_asNumber? {j : Json} {x : Binary64} (hj : j.IsPlain)
    (hx : j.asNumber? = some x) : x.isFinite = true := by
  cases j with
  | int i =>
    cases hx
    have hlow : -9223372036854775808 ≤ i := hj.1
    have hhigh : i < 18446744073709551616 := hj.2
    refine Binary64.isFinite_ofInt ?_
    show i.natAbs < 18446744073709551616
    omega
  | float y =>
    cases hx
    exact hj
  | _ => cases hx

namespace Options

/-- The keys that steer the session. -/
def IsSteering (name : String) : Prop := name = pingKey ∨ name = reconnectKey

instance (name : String) : Decidable (IsSteering name) := inferInstanceAs (Decidable (_ ∨ _))

def IsEndless (x : Binary64) : Prop :=
  x.isPositive = true ∧ Nat.pow 2 64 * x.magnitude.2 ≤ x.magnitude.1

/-- What keeps a descriptor from being read. -/
inductive Unfit : Json → Prop
  | kind {v : Json} (h : ∀ fields, v ≠ .object fields) : Unfit v
  | reconnect {fields : Fields} {j : Json} (h : Fields.get? fields reconnectKey = some j)
      (hj : ∀ b, j ≠ .bool b) : Unfit (.object fields)
  | ping {fields : Fields} {j : Json} (h : Fields.get? fields pingKey = some j)
      (hnull : j ≠ .null) (hj : j.asNumber? = none) : Unfit (.object fields)
  | length {fields : Fields} {j : Json} {x : Binary64} (h : Fields.get? fields pingKey = some j)
      (hj : j.asNumber? = some x) (hx : IsEndless x) : Unfit (.object fields)

theorem pingOutOfRange_iff {x : Binary64} (hx : x.isFinite = true) :
    pingOutOfRange x = true ↔ IsEndless x := by
  rw [pingOutOfRange, IsEndless, ← Duration.ofSeconds?_eq_none_iff hx]
  simp

theorem ofJson_object_eq_ok_iff {fields : Fields} {o : Options} :
    ofJson (.object fields) = .ok o ↔
      readAutoReconnect (Fields.get? fields reconnectKey) = .ok o.autoReconnect ∧
      readPingInterval (Fields.get? fields pingKey) = .ok o.pingInterval ∧
      o.entries = Fields.erase (Fields.erase fields reconnectKey) pingKey ∧
      ∀ x, o.pingInterval = some x → pingOutOfRange x = false := by
  obtain ⟨entries, pingInterval, autoReconnect⟩ := o
  cases hreconnect : readAutoReconnect (Fields.get? fields reconnectKey) with
  | error m =>
    have hfields : ofFields fields = .error m := by
      unfold ofFields
      rw [hreconnect]
      rfl
    simp [ofJson, hfields]
  | ok b =>
    cases hping : readPingInterval (Fields.get? fields pingKey) with
    | error m =>
      have hfields : ofFields fields = .error m := by
        unfold ofFields
        rw [hreconnect, hping]
        rfl
      simp [ofJson, hfields]
    | ok p =>
      have hfields : ofFields fields =
          .ok ⟨Fields.erase (Fields.erase fields reconnectKey) pingKey, p, b⟩ := by
        unfold ofFields
        rw [hreconnect, hping]
        rfl
      cases p <;> grind [ofJson]

theorem readAutoReconnect_some {j : Json} {b : Bool} :
    readAutoReconnect (some j) = .ok b ↔ j = .bool b := by
  cases j <;> simp [readAutoReconnect]

theorem readPingInterval_some {j : Json} {p : Option Binary64} :
    readPingInterval (some j) = .ok p ↔
      (j = .null ∧ p = none) ∨ ∃ x, j.asNumber? = some x ∧ p = some x := by
  cases j <;> simp [readPingInterval, Json.asNumber?, eq_comm]

theorem isFinite_of_readPingInterval {fields : Fields} {x : Binary64}
    (hplain : ∀ j, Fields.get? fields pingKey = some j → j.IsPlain)
    (hread : readPingInterval (Fields.get? fields pingKey) = .ok (some x)) :
    x.isFinite = true := by
  cases hget : Fields.get? fields pingKey with
  | none =>
    rw [hget] at hread
    cases hread
  | some j =>
    rw [hget, readPingInterval_some] at hread
    obtain ⟨-, hnone⟩ | ⟨y, hy, hxy⟩ := hread
    · cases hnone
    · cases hxy
      exact Json.isFinite_of_asNumber? (hplain j hget) hy

theorem exists_readAutoReconnect {fields : Fields} (hfit : ¬Unfit (.object fields)) :
    ∃ b, readAutoReconnect (Fields.get? fields reconnectKey) = .ok b := by
  cases hget : Fields.get? fields reconnectKey with
  | none => exact ⟨false, rfl⟩
  | some j =>
    obtain ⟨b, rfl⟩ : ∃ b, j = .bool b :=
      Classical.not_forall_not.mp fun hj => hfit (.reconnect hget hj)
    exact ⟨b, rfl⟩

theorem exists_readPingInterval {fields : Fields} (hfit : ¬Unfit (.object fields))
    (hplain : ∀ j, Fields.get? fields pingKey = some j → j.IsPlain) :
    ∃ p, readPingInterval (Fields.get? fields pingKey) = .ok p ∧
      ∀ x, p = some x → pingOutOfRange x = false := by
  cases hget : Fields.get? fields pingKey with
  | none => exact ⟨none, rfl, by simp⟩
  | some j =>
    cases hnumber : j.asNumber? with
    | none =>
      have hnull : j = .null := Classical.not_not.mp fun hj => hfit (.ping hget hj hnumber)
      exact ⟨none, readPingInterval_some.mpr (.inl ⟨hnull, rfl⟩), by simp⟩
    | some x =>
      refine ⟨some x, readPingInterval_some.mpr (.inr ⟨x, hnumber, rfl⟩), ?_⟩
      rintro _ ⟨⟩
      have hrange := pingOutOfRange_iff (Json.isFinite_of_asNumber? (hplain j hget) hnumber)
      exact Bool.eq_false_iff.mpr fun hlong => hfit (.length hget hnumber (hrange.mp hlong))

theorem ofJson_eq_error_iff {v : Json}
    (hplain : ∀ fields j, v = .object fields → Fields.get? fields pingKey = some j → j.IsPlain) :
    (∃ e, ofJson v = .error e) ↔ Unfit v := by
  constructor
  · rintro ⟨e, he⟩
    -- what is fit has all its parts read, so it cannot be refused
    refine Classical.not_not.mp fun hfit => ?_
    obtain ⟨fields, rfl⟩ : ∃ fields, v = .object fields :=
      Classical.not_forall_not.mp fun hv => hfit (.kind hv)
    obtain ⟨b, hb⟩ := exists_readAutoReconnect hfit
    obtain ⟨p, hp, hrange⟩ := exists_readPingInterval hfit fun j => hplain fields j rfl
    cases he.symm.trans (ofJson_object_eq_ok_iff (o := ⟨_, p, b⟩) |>.mpr ⟨hb, hp, rfl, hrange⟩)
  · intro hunfit
    cases hread : ofJson v with
    | error e => exact ⟨e, rfl⟩
    | ok o =>
      exfalso
      cases hunfit with
      | kind h =>
        cases v with
        | object fields => exact h fields rfl
        | _ => cases hread
      | reconnect h hj =>
        have hb := (ofJson_object_eq_ok_iff.mp hread).1
        rw [h, readAutoReconnect_some] at hb
        exact hj _ hb
      | ping h hnull hj =>
        have hp := (ofJson_object_eq_ok_iff.mp hread).2.1
        rw [h, readPingInterval_some] at hp
        obtain ⟨hp, -⟩ | ⟨x, hx, -⟩ := hp
        · exact hnull hp
        · rw [hj] at hx
          cases hx
      | length h hj hx =>
        obtain ⟨-, hp, -, hrange⟩ := ofJson_object_eq_ok_iff.mp hread
        rw [h, readPingInterval_some] at hp
        obtain ⟨rfl, -⟩ | ⟨x, hx', hp⟩ := hp
        · cases hj
        · cases hj.symm.trans hx'
          have hfinite := Json.isFinite_of_asNumber? (hplain _ _ rfl h) hj
          exact absurd ((pingOutOfRange_iff hfinite).mpr hx) (Bool.eq_false_iff.mp (hrange _ hp))

/-- Options are recovered from their descriptor, if it can be told apart from the two session
options and the interval can be written and read. -/
theorem ofJson_toJson_of_plain {o : Options} (hentries : ∀ f ∈ o.entries, ¬IsSteering f.1)
    (hfinite : ∀ x, o.pingInterval = some x → x.isFinite = true)
    (hrange : ∀ x, o.pingInterval = some x → pingOutOfRange x = false) :
    ofJson o.toJson = .ok o := by
  have hping : ∀ f ∈ o.entries, f.1 ≠ pingKey := fun f hf h => hentries f hf (.inl h)
  have hreconnect : ∀ f ∈ o.entries, f.1 ≠ reconnectKey := fun f hf h => hentries f hf (.inr h)
  have hkeys : pingKey ≠ reconnectKey := by decide
  obtain ⟨entries, pingInterval, autoReconnect⟩ := o
  cases pingInterval with
  | none =>
    refine ofJson_object_eq_ok_iff.mpr ⟨?_, ?_, ?_, hrange⟩
    · rw [Fields.get?_insert_self]
      rfl
    · rw [Fields.get?_insert_of_ne hkeys, Fields.get?_eq_none hping]
      rfl
    · rw [Fields.erase_insert, Fields.erase_eq_self hreconnect, Fields.erase_eq_self hping]
  | some x =>
    refine ofJson_object_eq_ok_iff.mpr ⟨?_, ?_, ?_, hrange⟩
    · rw [Fields.get?_insert_self]
      rfl
    · rw [Fields.get?_insert_of_ne hkeys, Fields.get?_insert_self, Json.ofBinary64,
        if_pos (hfinite x rfl)]
      rfl
    · rw [Fields.erase_insert, Fields.erase_comm, Fields.erase_insert,
        Fields.erase_eq_self hping, Fields.erase_eq_self hreconnect]

/-- Reading a descriptor takes out the two session options and leaves the rest; what was read
is written and read again as it is. Nothing but a field of the wrong kind and an endless
interval keeps a descriptor from being read. -/
theorem descriptor_round_trips :
    (∀ v : Json,
      (∀ fields j, v = .object fields → Fields.get? fields pingKey = some j → j.IsPlain) →
      (∀ o, ofJson v = .ok o → ofJson o.toJson = .ok o ∧
        ∃ fields, v = .object fields ∧ o.entries = fields.filter fun f => ¬IsSteering f.1) ∧
      ((∃ e, ofJson v = .error e) ↔ Unfit v)) ∧
    ∀ o : Options, (∀ f ∈ o.entries, ¬IsSteering f.1) →
      (∀ x, o.pingInterval = some x → x.isFinite = true ∧ ¬IsEndless x) →
      ofJson o.toJson = .ok o := by
  refine ⟨fun v hplain => ⟨fun o hread => ?_, ofJson_eq_error_iff hplain⟩, ?_⟩
  · cases v with
    | object fields =>
      obtain ⟨-, hping, herased, hrange⟩ := ofJson_object_eq_ok_iff.mp hread
      have hentries : o.entries = fields.filter fun f => ¬IsSteering f.1 := by
        rw [herased, Fields.erase, Fields.erase, List.filter_filter]
        simp [IsSteering]
      refine ⟨ofJson_toJson_of_plain (fun f hf => ?_) (fun x hx => ?_) hrange,
        fields, rfl, hentries⟩
      · rw [hentries, List.mem_filter] at hf
        simpa using hf.2
      · rw [hx] at hping
        exact isFinite_of_readPingInterval (hplain fields · rfl) hping
    | _ => cases hread
  · intro o hentries hping
    refine ofJson_toJson_of_plain hentries (fun x hx => (hping x hx).1) fun x hx => ?_
    obtain ⟨hfinite, hfits⟩ := hping x hx
    exact Bool.eq_false_iff.mpr fun hlong => hfits ((pingOutOfRange_iff hfinite).mp hlong)

/-- A descriptor with an interval in whole seconds. -/
def worded (seconds : Int) : Json :=
  .object [(reconnectKey, .bool true), ("db_file", .string ":memory:"), (pingKey, .int seconds)]

def wordedOptions (seconds : Int) : Options :=
  ⟨[("db_file", .string ":memory:")], some (.ofInt seconds), true⟩

/-- Half a minute is read and written again; the largest whole number of 64 bits is rounded up to
what no duration holds. -/
theorem descriptor_round_trips_worded :
    ofJson (worded 30) = .ok (wordedOptions 30) ∧
      ofJson (wordedOptions 30).toJson = .ok (wordedOptions 30) ∧
      (∃ e, ofJson (worded (Int.pow 2 64 - 1)) = .error e) ∧
      ofJson (wordedOptions (-1)).toJson = .ok (wordedOptions (-1)) := by
  have hplain : ∀ seconds, (Json.int seconds).IsPlain → ∀ fields j,
      worded seconds = .object fields → Fields.get? fields pingKey = some j → j.IsPlain := by
    rintro seconds h fields j ⟨⟩ ⟨⟩
    exact h
  have hread : ofJson (worded 30) = .ok (wordedOptions 30) := by
    refine ofJson_object_eq_ok_iff.mpr ⟨rfl, rfl, rfl, ?_⟩
    rintro x ⟨⟩
    decide +kernel
  have hsoon := descriptor_round_trips.1 (worded 30) (hplain _ ⟨by decide, by decide⟩)
  have hnever := descriptor_round_trips.1 (worded (Int.pow 2 64 - 1))
    (hplain _ ⟨by decide, by decide⟩)
  refine ⟨hread, (hsoon.1 _ hread).1,
    hnever.2.mpr (.length rfl rfl ⟨by decide +kernel, by decide +kernel⟩),
    descriptor_round_trips.2 _ (by decide) ?_⟩
  rintro x ⟨⟩
  exact ⟨by decide +kernel, fun hendless => absurd hendless.1 (by decide +kernel)⟩

end Options

end DatabaseSession
