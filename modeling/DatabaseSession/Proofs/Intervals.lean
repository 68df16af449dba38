import Mathlib.Algebra.Order.Field.Rat
import Mathlib.Algebra.Ring.Parity
import Mathlib.Tactic.FieldSimp
import Mathlib.Tactic.Linarith
import Mathlib.Tactic.NormNum
import Mathlib.Tactic.Positivity
import Mathlib.Tactic.Ring
import DatabaseSession.Proofs.Descriptors
import DatabaseSession.Proofs.Opening
import DatabaseSession.Proofs.Signalling

namespace DatabaseSession

/-- A whole number nearest to `q`; of two that are, the even one. -/
structure IsNearest (q : ℚ) (n : ℕ) : Prop where
  near : |q - n| ≤ 1 / 2
  even_of_tie : |q - n| = 1 / 2 → Even n

theorem IsNearest.unique {q : ℚ} {m n : ℕ} (hm : IsNearest q m) (hn : IsNearest q n) :
    m = n := by
  wlog hle : m ≤ n generalizing m n
  · exact (this hn hm (Nat.le_of_not_le hle)).symm
  obtain ⟨hm₁, hm₂⟩ := abs_le.mp hm.near
  obtain ⟨hn₁, hn₂⟩ := abs_le.mp hn.near
  have hgap : (n : ℚ) ≤ (m + 1 : ℕ) := by
    push_cast
    linarith
  have hgap : n ≤ m + 1 := by exact_mod_cast hgap
  refine Nat.le_antisymm hle (Nat.le_of_not_lt fun hlt => ?_)
  -- only the two neighbours of a tie are both nearest, and one of them is odd
  obtain rfl : n = m + 1 := Nat.le_antisymm hgap hlt
  push_cast at hn₁ hn₂
  have htie : q = m + 1 / 2 := by linarith
  have heven : Even m := hm.even_of_tie (by rw [htie]; norm_num)
  have hodd : Even (m + 1) := hn.even_of_tie (by rw [htie]; push_cast; norm_num)
  exact (Nat.even_add_one.mp hodd) heven

theorem IsNearest.of_lt {q : ℚ} {n : ℕ} (h : |q - n| < 1 / 2) : IsNearest q n :=
  ⟨h.le, fun htie => absurd htie h.ne⟩

theorem isNearest_roundHalfEven (n : ℕ) {d : ℕ} (hd : 0 < d) :
    IsNearest (n / d) (roundHalfEven n d) := by
  have hd' : (0 : ℚ) < d := by exact_mod_cast hd
  have hsplit : (n : ℚ) / d = (n / d : ℕ) + (n % d : ℕ) / d := by
    rw [div_eq_iff hd'.ne', add_mul, div_mul_cancel₀ _ hd'.ne']
    exact_mod_cast (Nat.div_add_mod' n d).symm
  have hbelow : ((n % d : ℕ) : ℚ) / d < 1 := by
    rw [div_lt_one hd']
    exact_mod_cast Nat.mod_lt n hd
  have habove : (0 : ℚ) ≤ (n % d : ℕ) / d := by positivity
  rw [hsplit, roundHalfEven]
  split_ifs with hlow hhigh
  · have hhalf : ((n % d : ℕ) : ℚ) / d < 1 / 2 := by
      rw [div_lt_div_iff₀ hd' two_pos]
      exact_mod_cast (by omega : n % d * 2 < 1 * d)
    refine .of_lt (abs_lt.mpr ⟨?_, ?_⟩) <;> linarith
  · have hhalf : 1 / 2 < ((n % d : ℕ) : ℚ) / d := by
      rw [div_lt_div_iff₀ two_pos hd']
      exact_mod_cast (by omega : 1 * d < n % d * 2)
    refine .of_lt (abs_lt.mpr ⟨?_, ?_⟩) <;> push_cast <;> linarith
  · have hhalf : ((n % d : ℕ) : ℚ) / d = 1 / 2 := by
      rw [div_eq_div_iff hd'.ne' two_ne_zero]
      exact_mod_cast (by omega : n % d * 2 = 1 * d)
    rw [hhalf]
    refine ⟨?_, fun _ => Nat.even_iff.mpr (by omega)⟩
    rcases Nat.mod_two_eq_zero_or_one (n / d) with hparity | hparity <;> rw [hparity] <;>
      push_cast <;> norm_num

namespace Binary64

/-- What a word stands for. -/
inductive Meaning where
  | nan
  | infinite (negative : Bool)
  | exact (q : ℚ)

/-- Greater than zero; a NaN is not. -/
def Meaning.IsPositive : Meaning → Prop
  | .nan => False
  | .infinite negative => negative = false
  | .exact q => 0 < q

def sign (x : Binary64) : ℚ := if x.isNegative then -1 else 1

/-- A word has a sign, an exponent of 11 bits and a fraction of 52. The least exponent is that of
zero and the subnormal numbers, which lack the leading one, and the greatest that of the
infinities and NaNs. -/
def meaning (x : Binary64) : Meaning :=
  if x.exponentField = 2047 then if x.fraction = 0 then .infinite x.isNegative else .nan
  else if x.exponentField = 0 then .exact (x.sign * (x.fraction / 2 ^ 52) * 2 ^ (-1022 : ℤ))
  else .exact (x.sign * (1 + x.fraction / 2 ^ 52) * 2 ^ (x.exponentField - 1023 : ℤ))

theorem isFinite_iff (x : Binary64) : x.isFinite = true ↔ x.exponentField ≠ 2047 := by
  have hlt : x.exponentField < 2048 := Nat.mod_lt _ (by decide)
  rw [isFinite, decide_eq_true_eq]
  omega

theorem scaled_eq (a : ℚ) (e m : ℕ) :
    a / 2 ^ 52 * 2 ^ (e - m : ℤ) = a * 2 ^ e / 2 ^ (52 + m) := by
  rw [zpow_sub₀ two_ne_zero, zpow_natCast, zpow_natCast, pow_add]
  field_simp

theorem meaning_of_isFinite {x : Binary64} (h : x.isFinite = true) :
    x.meaning = .exact (x.sign * (x.magnitude.1 / x.magnitude.2)) := by
  rw [meaning, if_neg ((isFinite_iff x).mp h), magnitude, significand, binade]
  cases he : x.exponentField with
  | zero =>
    rw [if_pos rfl, if_pos rfl, mul_assoc, show (-1022 : ℤ) = (0 : ℕ) - (1022 : ℕ) by rfl,
      scaled_eq]
    simp only [Nat.pow_eq, Nat.cast_mul, Nat.cast_pow, Nat.cast_ofNat]
  | succ e =>
    have hlead : (1 + x.fraction / 2 ^ 52 : ℚ) = (2 ^ 52 + x.fraction) / 2 ^ 52 := by
      field_simp
    rw [if_neg e.succ_ne_zero, if_neg e.succ_ne_zero, mul_assoc, hlead,
      show ((e + 1 : ℕ) - 1023 : ℤ) = e - (1022 : ℕ) by push_cast; ring, scaled_eq]
    simp only [Nat.pow_eq, Nat.cast_mul, Nat.cast_pow, Nat.cast_add, Nat.cast_ofNat]
    rfl

theorem magnitude_pos_iff (x : Binary64) : 0 < x.magnitude.1 ↔ x.isZero = false := by
  have hsignificand : x.significand ≠ 0 ↔ ¬(x.exponentField = 0 ∧ x.fraction = 0) := by
    have hlead : Nat.pow 2 52 ≠ 0 := by decide
    unfold significand
    split_ifs with he <;> omega
  rw [← Bool.not_eq_true, isZero_iff, ← hsignificand, Nat.pos_iff_ne_zero]
  refine mul_ne_zero_iff.trans (and_iff_left ?_)
  exact (Nat.pow_pos two_pos).ne'

theorem magnitude_snd_pos (x : Binary64) : 0 < x.magnitude.2 := by
  obtain ⟨e, he⟩ := x.exists_magnitude_eq
  rw [he]
  exact Nat.pow_pos two_pos

theorem isPositive_iff (x : Binary64) : x.isPositive = true ↔ x.meaning.IsPositive := by
  cases hfinite : x.isFinite with
  | true =>
    have hnum := x.magnitude_pos_iff
    have hden := x.magnitude_snd_pos
    rw [meaning_of_isFinite hfinite]
    generalize x.magnitude.1 = num, x.magnitude.2 = den at hnum hden
    have hden : (0 : ℚ) < den := by exact_mod_cast hden
    simp only [isPositive, isNaN, hfinite, Meaning.IsPositive, sign]
    cases x.isNegative with
    | true =>
      have hnonneg : (0 : ℚ) ≤ num / den := div_nonneg (Nat.cast_nonneg num) hden.le
      simpa using hnonneg
    | false => simp [div_pos_iff_of_pos_right hden, ← hnum]
  | false =>
    have hexp : x.exponentField = 2047 := by
      simpa [hfinite] using (isFinite_iff x).not
    have hzero : x.isZero = false := by
      rw [← Bool.not_eq_true, isZero_iff]
      omega
    rw [meaning, if_pos hexp]
    split_ifs with hfraction <;>
      simp [isPositive, isNaN, hfinite, hfraction, hzero, Meaning.IsPositive]

/-- The nanoseconds that a number of seconds comes to; an infinity comes to none. -/
def RoundsTo (x : Binary64) (nanos : ℕ) : Prop :=
  ∃ q, x.meaning = .exact q ∧ IsNearest (q * 10 ^ 9) nanos

theorem isFinite_of_meaning {x : Binary64} {q : ℚ} (h : x.meaning = .exact q) :
    x.isFinite = true := by
  rw [isFinite_iff]
  intro hexp
  rw [meaning, if_pos hexp] at h
  split_ifs at h

theorem roundsTo_iff {x : Binary64} (hpos : x.isPositive = true) {n : ℕ} :
    x.RoundsTo n ↔ x.isFinite = true ∧
      n = roundHalfEven (x.magnitude.1 * Duration.nanosPerSecond) x.magnitude.2 := by
  have hsign : x.sign = 1 := by
    simp only [isPositive, Bool.and_eq_true, Bool.not_eq_true'] at hpos
    simp [sign, hpos.1.1]
  have hnanos : x.sign * (x.magnitude.1 / x.magnitude.2) * 10 ^ 9 =
      (x.magnitude.1 * Duration.nanosPerSecond : ℕ) / (x.magnitude.2 : ℚ) := by
    rw [hsign, one_mul, div_mul_eq_mul_div, Nat.cast_mul]
    rw [show ((Duration.nanosPerSecond : ℕ) : ℚ) = 10 ^ 9 by norm_num [Duration.nanosPerSecond]]
  have hnearest := isNearest_roundHalfEven (x.magnitude.1 * Duration.nanosPerSecond)
    x.magnitude_snd_pos
  rw [← hnanos] at hnearest
  constructor
  · rintro ⟨q, hq, hn⟩
    have hfinite := isFinite_of_meaning hq
    rw [meaning_of_isFinite hfinite] at hq
    rw [← Meaning.exact.inj hq] at hn
    exact ⟨hfinite, hn.unique hnearest⟩
  · rintro ⟨hfinite, hn⟩
    rw [hn]
    exact ⟨_, meaning_of_isFinite hfinite, hnearest⟩

end Binary64

namespace Duration

/-- A duration holds its seconds in 64 bits, and nanoseconds short of a second. -/
def IsHeld (d : Duration) : Prop := d.seconds < 2 ^ 64 ∧ d.nanos < nanosPerSecond

theorem toNanos_ofNanos (n : ℕ) : (ofNanos n).toNanos = n := Nat.div_add_mod' n nanosPerSecond

theorem eq_ofNanos_iff {d : Duration} {n : ℕ} :
    d = ofNanos n ↔ n = d.toNanos ∧ d.nanos < nanosPerSecond := by
  obtain ⟨seconds, nanos⟩ := d
  simp only [ofNanos, toNanos, nanosPerSecond, Duration.mk.injEq]
  omega

theorem isHeld_ofNanos_iff {n : ℕ} : (ofNanos n).IsHeld ↔ n / nanosPerSecond < 2 ^ 64 :=
  and_iff_left (Nat.mod_lt n (by decide))

/-- A positive number of seconds becomes the duration nearest to it, if there is one. -/
theorem ofSeconds?_eq_some_iff {x : Binary64} (hpos : x.isPositive = true) {d : Duration} :
    ofSeconds? x = some d ↔ x.RoundsTo d.toNanos ∧ d.IsHeld := by
  rw [Binary64.roundsTo_iff hpos, ofSeconds?]
  generalize x.magnitude = m
  cases x.isFinite with
  | false => simp
  | true =>
    simp only [if_true, true_and]
    generalize roundHalfEven (m.1 * nanosPerSecond) m.2 = n
    constructor
    · intro h
      split_ifs at h with hseconds
      cases h
      exact ⟨toNanos_ofNanos n, hseconds, Nat.mod_lt n (by decide)⟩
    · rintro ⟨hn, hseconds, hnanos⟩
      have hd : d = ofNanos n := eq_ofNanos_iff.mpr ⟨hn.symm, hnanos⟩
      have hfits : (ofNanos n).seconds < Nat.pow 2 64 := hd ▸ hseconds
      rw [if_pos hfits, hd]

end Duration

namespace Options

theorem probeInterval_eq_some_iff {o : Options} {d : Duration} :
    o.probeInterval = some d ↔
      ∃ x, o.pingInterval = some x ∧ x.meaning.IsPositive ∧ x.RoundsTo d.toNanos ∧ d.IsHeld := by
  cases hping : o.pingInterval with
  | none => simp [probeInterval, hping]
  | some x =>
    simp only [probeInterval, hping, Option.some.injEq, exists_eq_left', ← Binary64.isPositive_iff]
    cases hpos : x.isPositive with
    | false => simp
    | true => simpa using Duration.ofSeconds?_eq_some_iff hpos

theorem probeInterval_eq_none_iff {o : Options} {x : Binary64} (hping : o.pingInterval = some x) :
    o.probeInterval = none ↔ ¬x.meaning.IsPositive ∨
      ¬∃ n, x.RoundsTo n ∧ n / Duration.nanosPerSecond < 2 ^ 64 := by
  have hsome : (∃ d, o.probeInterval = some d) ↔ x.meaning.IsPositive ∧
      ∃ n, x.RoundsTo n ∧ n / Duration.nanosPerSecond < 2 ^ 64 := by
    simp only [probeInterval_eq_some_iff, hping, Option.some.injEq, exists_eq_left',
      exists_and_left]
    refine and_congr_right fun _ => ⟨?_, ?_⟩
    · rintro ⟨d, hround, hheld⟩
      refine ⟨d.toNanos, hround, Duration.isHeld_ofNanos_iff.mp ?_⟩
      rwa [← Duration.eq_ofNanos_iff.mpr ⟨rfl, hheld.2⟩]
    · rintro ⟨n, hround, hfits⟩
      exact ⟨.ofNanos n, by rwa [Duration.toNanos_ofNanos], Duration.isHeld_ofNanos_iff.mpr hfits⟩
  rw [← not_and_or, ← hsome, not_exists, Option.eq_none_iff_forall_ne_some]

theorem pingOutOfRange_eq_true_iff {o : Options} {x : Binary64} (hping : o.pingInterval = some x) :
    pingOutOfRange x = true ↔ x.meaning.IsPositive ∧ o.probeInterval = none := by
  rw [← Binary64.isPositive_iff, pingOutOfRange, probeInterval, hping]
  cases hpos : x.isPositive <;> simp [hpos]

theorem ofJson_of_ofFields {fields : Fields} {o : Options} (h : ofFields fields = .ok o)
    (hrange : ∀ x, o.pingInterval = some x → pingOutOfRange x = false) :
    ofJson (.object fields) = .ok o := by
  rw [ofJson, h]
  cases hping : o.pingInterval with
  | none => simp [hping]
  | some x => simp [hping, hrange x hping]

/-- Of the descriptors with fields of the right kinds, those are refused whose interval is positive
and would disable the probing. -/
theorem ofJson_refuses_iff {fields : Fields} {o : Options} (h : ofFields fields = .ok o) :
    (∃ e, ofJson (.object fields) = .error e) ↔
      ∃ x, o.pingInterval = some x ∧ x.meaning.IsPositive ∧ o.probeInterval = none := by
  rw [ofJson, h]
  cases hping : o.pingInterval with
  | none => simp [hping]
  | some x =>
    simp only [hping, Option.some.injEq, exists_eq_left', ← pingOutOfRange_eq_true_iff hping]
    cases pingOutOfRange x <;> simp

/-- The time between probes is the interval's exact value to the nanosecond, and there is none just
if the interval is not positive or no duration holds that value. No positive interval that is read
from a descriptor disables the probing, and no other interval keeps one from being read. -/
theorem probeInterval_exact :
    (∀ (o : Options) (x : Binary64), o.pingInterval = some x →
      (o.probeInterval = none ↔ ¬x.meaning.IsPositive ∨
        ¬∃ n, x.RoundsTo n ∧ n / Duration.nanosPerSecond < 2 ^ 64) ∧
      ∀ d, o.probeInterval = some d → x.RoundsTo d.toNanos ∧ d.IsHeld) ∧
    (∀ (v : Json) (o : Options) (x : Binary64), ofJson v = .ok o → o.pingInterval = some x →
      x.meaning.IsPositive → ∃ d, o.probeInterval = some d) ∧
    ∀ (fields : Fields) (o : Options), ofFields fields = .ok o →
      ((∃ e, ofJson (.object fields) = .error e) ↔
        ∃ x, o.pingInterval = some x ∧ x.meaning.IsPositive ∧ o.probeInterval = none) := by
  refine ⟨fun o x hping => ⟨probeInterval_eq_none_iff hping, fun d hd => ?_⟩,
    fun v o x hread hping hpos => ?_, fun fields o h => ofJson_refuses_iff h⟩
  · obtain ⟨y, hy, -, hround⟩ := probeInterval_eq_some_iff.mp hd
    cases hping.symm.trans hy
    exact hround
  · obtain ⟨fields, rfl⟩ : ∃ fields, v = .object fields := by
      cases v with
      | object fields => exact ⟨fields, rfl⟩
      | _ => cases hread
    have hrange := (ofJson_object_eq_ok_iff.mp hread).2.2.2 x hping
    refine Option.ne_none_iff_exists'.mp fun hnone => ?_
    exact absurd ((pingOutOfRange_eq_true_iff hping).mpr ⟨hpos, hnone⟩) (by simp [hrange])

/-- A descriptor with nothing but an interval. -/
def pinging (x : Binary64) : Fields := [(pingKey, .float x)]

def pingingOptions (x : Binary64) : Options := { pingInterval := some x }

/-- The 1024th part of a second is 976562.5 nanoseconds, halfway between two whole numbers. -/
def tie : Binary64 := ⟨0x3F50000000000000⟩

def endless : Binary64 := ⟨0x43F0000000000000⟩

/-- The tie goes to the even number of nanoseconds, and what no duration holds is not read. -/
theorem probeInterval_exact_tie :
    (pingingOptions tie).probeInterval = some ⟨0, 976562⟩ ∧ tie.RoundsTo 976562 ∧
      (∃ d, (pingingOptions tie).probeInterval = some d) ∧
      (pingingOptions endless).probeInterval = none ∧
      (∃ e, ofJson (.object (pinging endless)) = .error e) := by
  obtain ⟨hexact, hread, hrefused⟩ := probeInterval_exact
  have htie : (pingingOptions tie).probeInterval = some ⟨0, 976562⟩ := by decide +kernel
  have hendless : (pingingOptions endless).probeInterval = none := by decide +kernel
  have hpositive : ∀ x : Binary64, x.isPositive = true → x.meaning.IsPositive := fun x =>
    x.isPositive_iff.mp
  have hok : ofJson (.object (pinging tie)) = .ok (pingingOptions tie) := by decide +kernel
  exact ⟨htie, ((hexact _ tie rfl).2 _ htie).1,
    hread _ _ tie hok rfl (hpositive _ (by decide +kernel)), hendless,
    (hrefused _ (pingingOptions endless) rfl).mpr
      ⟨endless, rfl, hpositive _ (by decide +kernel), hendless⟩⟩

end Options

namespace Link

open Run

variable {ω : Type}

def settled (ω : Type) : Course (Log × ω) :=
  .ofGrowth (fun s s' => s'.link.options = s.link.options) (fun _ => rfl) fun h h' => h'.trans h

theorem settled_permits (p : Parties ω) (d : Duty) : (settled ω).Permits p d :=
  Course.permits_of fun ht =>
    Course.allows_of_panics (congrArg Link.options ht.link) (congrArg Link.options ht.link)

theorem connect_options (p : Parties ω) (s : Session (Log × ω)) :
    (connect p.logged s).2.link.options = s.link.options := by
  have hcovers : Covers (settled ω) p fun _ => true :=
    ⟨fun d _ => settled_permits p d, fun _ => rfl⟩
  exact (follows_connect hcovers rfl s).goes_of_sticks id

theorem publish_options (p : Parties ω) (s : Session (Log × ω)) :
    (publish p.logged s).2.link.options = s.link.options :=
  (follows_publish (fun d _ => settled_permits p d) (fun _ _ => rfl) s).goes_of_sticks id

end Link

namespace Session

open Run

variable {ω : Type} {p : Parties ω} {s s' : Session (Log × ω)}

/-- A session that has started its worker probes at the interval of its options. -/
theorem start_probing (hlife : s.life = .idle) (hthreaded : s.settings.threaded = true)
    (h : start p.logged s = (.ok (), s')) :
    s'.mailbox.probing = s.link.options.probeInterval := by
  rw [start_idle _ hlife, hthreaded] at h
  obtain ⟨s₁, henter, rfl⟩ := holding_runs h (by simp)
  rw [enter, if_pos rfl] at henter
  obtain ⟨r, s₂, hlaunch, hrest⟩ := exists_of_bind_ok henter
  cases r with
  | error e => cases hrest
  | ok _ =>
    cases hrest
    obtain ⟨s₃, s₄, hconnect, hpublish, rfl⟩ := Service.exists_of_launch_ok hlaunch
    have hconnected := Link.connect_options p
      { s with life := .closed, locked := true
               mailbox := { s.mailbox with receiving := true } }
    have hpublished := Link.publish_options p s₃
    rw [hconnect] at hconnected
    rw [hpublish] at hpublished
    exact congrArg Options.probeInterval (hpublished.trans hconnected)

end Session

namespace Options

/-- The interval is positive and half a nanosecond at most. -/
def IsFleeting (o : Options) : Prop :=
  ∃ x q, o.pingInterval = some x ∧ x.meaning = .exact q ∧ 0 < q ∧ q ≤ 1 / (2 * 10 ^ 9)

theorem probeInterval_zero_iff (o : Options) :
    (∃ d, o.probeInterval = some d ∧ ¬0 < d.toNanos) ↔ o.IsFleeting := by
  simp only [probeInterval_eq_some_iff, Nat.not_lt, Nat.le_zero]
  constructor
  · rintro ⟨d, ⟨x, hping, hpos, ⟨q, hq, hnearest⟩, -⟩, hzero⟩
    rw [hq] at hpos
    rw [hzero] at hnearest
    have hnear := (abs_le.mp hnearest.near).2
    refine ⟨x, q, hping, hq, hpos, ?_⟩
    push_cast at hnear
    linarith
  · rintro ⟨x, q, hping, hq, hpos, hle⟩
    refine ⟨⟨0, 0⟩, ⟨x, hping, hq ▸ hpos, ⟨q, hq, ?_, fun _ => by decide⟩, by decide, by decide⟩,
      rfl⟩
    have hnanos : ((Duration.toNanos ⟨0, 0⟩ : ℕ) : ℚ) = 0 := by norm_num [Duration.toNanos]
    rw [hnanos, sub_zero, abs_of_pos (by positivity)]
    linarith

/-- A heartbeat never pauses just if its interval is positive and not above half a nanosecond, which
is rounded to nothing. Descriptors with such an interval are read, and the worker of a session
starts its heartbeat with it. -/
theorem heartbeat_restless_iff {ω : Type} :
    (∀ o : Options, (∃ d, o.probeInterval = some d ∧ ¬0 < d.toNanos) ↔ o.IsFleeting) ∧
    (∀ (fields : Fields) (o : Options), ofFields fields = .ok o → o.IsFleeting →
      ofJson (.object fields) = .ok o) ∧
    ∀ (p : Parties ω) (s s' : Session (Log × ω)), s.life = .idle → s.settings.threaded = true →
      Session.start p.logged s = (.ok (), s') →
      ((∃ d, s'.mailbox.probing = some d ∧ ¬0 < d.toNanos) ↔ s.link.options.IsFleeting) := by
  refine ⟨probeInterval_zero_iff, fun fields o hread hfleeting => ?_,
    fun p s s' hlife hthreaded hstart => ?_⟩
  · obtain ⟨d, hd, -⟩ := (probeInterval_zero_iff o).mpr hfleeting
    refine ofJson_of_ofFields hread fun x hping => Bool.eq_false_iff.mpr fun hlong => ?_
    have hnone := ((pingOutOfRange_eq_true_iff hping).mp hlong).2
    cases hd.symm.trans hnone
  · rw [Session.start_probing hlife hthreaded hstart]
    exact probeInterval_zero_iff _

/-- 0.4 nanoseconds. -/
def fleeting : Binary64 := ⟨0x3DFB7CDFD9D7BDBB⟩

open Rehearsal in
def hasty : Session (Log × Scene) :=
  .create "s1" "Mock" (pingingOptions fleeting) {} ([], ({} : Cast).scene {} [])

open Rehearsal in
theorem heartbeat_restless_iff_fleeting :
    (pingingOptions fleeting).IsFleeting ∧
      ofJson (.object (pinging fleeting)) = .ok (pingingOptions fleeting) ∧
      ∃ d, (Session.start ({} : Cast).parties.logged hasty).2.mailbox.probing = some d ∧
        ¬0 < d.toNanos := by
  obtain ⟨hzero, hread, hstarted⟩ := heartbeat_restless_iff (ω := Scene)
  have hfleeting : (pingingOptions fleeting).IsFleeting :=
    (hzero _).mp ⟨⟨0, 0⟩, by decide +kernel, by decide⟩
  have hstart : (Session.start ({} : Cast).parties.logged hasty).1 = .ok () := by decide +kernel
  exact ⟨hfleeting, hread _ _ rfl hfleeting,
    (hstarted _ hasty _ rfl rfl (Prod.ext hstart rfl)).mpr hfleeting⟩

end Options

end DatabaseSession
