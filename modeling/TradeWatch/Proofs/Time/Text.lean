/-
Times and their text. A time in UTC may be written with a real date in a year of four digits, the
time of day, any number of digits behind the second, and one of the signs for no offset; it is read
back to the nanosecond. The text of an instant in such a year is one of these, and the sign in front
of any other year has no reading.
-/
import TradeWatch.Proofs.Text.Digits
import TradeWatch.Proofs.Time.Civil
import TradeWatch.Table.Basic

namespace TradeWatch.Time

open Text (EndsDigits valueOf zeroPadded)

/-! ## Parts -/

theorem digits?_append {n : ℕ} {ds : List Char} (hn : ds.length = n)
    (hd : ds.all Char.isDigit = true) (rest : List Char) :
    digits? n (ds ++ rest) = some (valueOf ds, rest) := by
  subst hn
  unfold digits?
  rw [List.take_left, List.drop_left]
  simp only
  rw [if_pos ⟨trivial, hd⟩]

theorem digits?_zeroPadded {width n : ℕ} (hw : 0 < width) (h : n < 10 ^ width) (rest : List Char) :
    digits? width ((zeroPadded width n).toList ++ rest) = some (n, rest) := by
  rw [digits?_append (Text.length_zeroPadded hw h) (Text.all_isDigit_zeroPadded _ _),
    Text.valueOf_zeroPadded]

theorem expect?_cons (c : Char) (cs : List Char) : expect? c (c :: cs) = some cs := by
  simp [expect?]

/-- A real date in a year of four digits is read from its text. -/
theorem date?_dateText {d : Date} (hr : d.isReal = true) (hy : hasPlainYear d.year = true)
    (rest : List Char) : date? ((dateText d).toList ++ rest) = some (d, rest) := by
  obtain ⟨-, hm, -, hd⟩ := Date.bounds_of_isReal hr
  have hyear : 0 ≤ d.year ∧ d.year ≤ 9999 := by simpa [hasPlainYear] using hy
  have hshape : (dateText d).toList ++ rest = (zeroPadded 4 d.year.toNat).toList ++ '-' ::
      ((zeroPadded 2 d.month).toList ++ '-' :: ((zeroPadded 2 d.day).toList ++ rest)) := by
    simp [dateText, yearText, hy]
  have hcast : ((d.year.toNat : ℕ) : ℤ) = d.year := Int.toNat_of_nonneg hyear.1
  unfold date?
  rw [hshape, digits?_zeroPadded (by decide) (by omega)]
  simp only [Option.bind_eq_bind, Option.bind_some, expect?_cons]
  rw [digits?_zeroPadded (by decide) (by omega)]
  simp only [Option.bind_some, expect?_cons]
  rw [digits?_zeroPadded (by decide) (by omega)]
  simp only [Option.bind_some, hcast]
  rw [if_pos hr]

theorem date?_sign {c : Char} (h : c.isDigit = false) (cs : List Char) : date? (c :: cs) = none := by
  unfold date? digits?
  simp [h]

theorem fraction?_point {ds rest : List Char} (hne : ds ≠ []) (hd : ds.all Char.isDigit = true)
    (hr : EndsDigits rest) : fraction? ('.' :: (ds ++ rest)) = some (nanosOfDigits ds, rest) := by
  unfold fraction?
  simp only
  rw [Text.takeWhile_isDigit_append hd hr, Text.dropWhile_isDigit_append hd hr,
    if_neg (by simpa using hne)]

/-! ## Texts in UTC -/

/-- The decimal part of a second: nothing for none, or a point and digits that are exact. -/
def IsFraction (nanos : ℕ) (cs : List Char) : Prop :=
  (cs = [] ∧ nanos = 0) ∨
    ∃ ds, ds ≠ [] ∧ ds.all Char.isDigit = true ∧ cs = '.' :: ds ∧
      valueOf ds * 10 ^ 9 = nanos * 10 ^ ds.length

/-- The signs for no offset from UTC. -/
def utcSigns : List String :=
  ["Z", "z", "+00:00", "-00:00"]

/-- The hour, the minute and the second. -/
def clockDigits (hour minute second : ℕ) : String :=
  zeroPadded 2 hour ++ ":" ++ zeroPadded 2 minute ++ ":" ++ zeroPadded 2 second

/-- The text is the instant's in UTC. -/
inductive Instant.WritesUtc (t : Instant) : String → Prop
  | intro {d : Date} {hour minute second nanos : ℕ} {separator : Char} {fraction sign : String}
      (hreal : d.isReal = true) (hyear : 0 ≤ d.year ∧ d.year ≤ 9999) (hhour : hour < 24)
      (hminute : minute < 60) (hsecond : second < 60) (hseparator : separator ∈ ['T', 't', ' '])
      (hfraction : IsFraction nanos fraction.toList) (hsign : sign ∈ utcSigns)
      (hnanos : t.nanos = (d.toDay * 86400 + hour * 3600 + minute * 60 + second) * 10 ^ 9 + nanos) :
      t.WritesUtc (dateText d ++ String.singleton separator ++ clockDigits hour minute second ++
        fraction ++ sign)

/-- Digits that are exact are the nanoseconds, however many there are. -/
theorem nanosOfDigits_of_exact {ds : List Char} {nanos : ℕ} (hd : ds.all Char.isDigit = true)
    (h : valueOf ds * 10 ^ 9 = nanos * 10 ^ ds.length) : nanosOfDigits ds = nanos := by
  unfold nanosOfDigits
  by_cases hlen : ds.length ≤ 9
  · -- the zeros that are added make up for the digits that are not there
    have hpow : 10 ^ (9 - ds.length) * 10 ^ ds.length = 10 ^ 9 := by
      rw [← pow_add, Nat.sub_add_cancel hlen]
    rw [List.take_append, List.take_of_length_le hlen, List.take_replicate,
      Text.valueOf_append_zeros, min_eq_left (by omega)]
    refine Nat.eq_of_mul_eq_mul_right (Nat.pow_pos (n := ds.length) (by decide : 0 < 10)) ?_
    rw [← h, ← hpow]
    ring
  · -- the digits that are cut off are zeros
    have hpow : 10 ^ (ds.length - 9) * 10 ^ 9 = 10 ^ ds.length := by
      rw [← pow_add, Nat.sub_add_cancel (by omega)]
    rw [List.take_append_of_le_length (by omega)]
    have hsplit : valueOf ds =
        10 ^ (ds.length - 9) * valueOf (ds.take 9) + valueOf (ds.drop 9) := by
      conv_lhs => rw [← List.take_append_drop 9 ds]
      rw [Text.valueOf_append, List.length_drop]
    have hrest : valueOf (ds.drop 9) < 10 ^ (ds.length - 9) := by
      have hdigits : (ds.drop 9).all Char.isDigit = true :=
        List.all_eq_true.2 fun c hc => List.all_eq_true.1 hd c (List.mem_of_mem_drop hc)
      rw [← List.length_drop]
      exact Text.valueOf_lt hdigits
    have hvalue : valueOf ds = nanos * 10 ^ (ds.length - 9) := by
      refine Nat.eq_of_mul_eq_mul_right (by decide : 0 < 10 ^ 9) ?_
      rw [h, ← hpow]
      ring
    calc valueOf (ds.take 9) = valueOf ds / 10 ^ (ds.length - 9) := by
          rw [hsplit, Nat.mul_add_div (Nat.pow_pos (by decide)), Nat.div_eq_of_lt hrest,
            Nat.add_zero]
      _ = nanos := by rw [hvalue, Nat.mul_div_cancel _ (Nat.pow_pos (by decide))]

theorem nanos_lt_of_exact {ds : List Char} {nanos : ℕ} (hd : ds.all Char.isDigit = true)
    (h : valueOf ds * 10 ^ 9 = nanos * 10 ^ ds.length) : nanos < 10 ^ 9 := by
  refine Nat.lt_of_mul_lt_mul_right (a := 10 ^ ds.length) ?_
  rw [← h, Nat.mul_comm]
  exact Nat.mul_lt_mul_of_pos_left (Text.valueOf_lt hd) (by decide)

theorem IsFraction.lt {nanos : ℕ} {cs : List Char} (h : IsFraction nanos cs) : nanos < 10 ^ 9 := by
  obtain ⟨-, rfl⟩ | ⟨ds, -, hd, -, hexact⟩ := h
  · decide
  · exact nanos_lt_of_exact hd hexact

theorem IsFraction.fraction? {nanos : ℕ} {cs : List Char} (h : IsFraction nanos cs) {c : Char}
    (rest : List Char) (hc : c.isDigit = false) (hdot : c ≠ '.') :
    fraction? (cs ++ c :: rest) = some (nanos, c :: rest) := by
  obtain ⟨rfl, rfl⟩ | ⟨ds, hne, hd, rfl, hexact⟩ := h
  · unfold Time.fraction?
    split
    · rename_i heq
      exact absurd (List.cons.inj heq).1 hdot
    · rfl
  · rw [List.cons_append, fraction?_point hne hd (Text.endsDigits_cons rest hc),
      nanosOfDigits_of_exact hd hexact]

theorem clockWithColons?_clockDigits {hour minute second nanos : ℕ} (hhour : hour < 24)
    (hminute : minute < 60) (hsecond : second < 60) {fraction : List Char}
    (hfraction : IsFraction nanos fraction) {c : Char} (rest : List Char) (hc : c.isDigit = false)
    (hdot : c ≠ '.') :
    clockWithColons? ((clockDigits hour minute second).toList ++ (fraction ++ c :: rest)) =
      some ((hour * 3600 + minute * 60 + second, nanos), c :: rest) := by
  have hshape : (clockDigits hour minute second).toList ++ (fraction ++ c :: rest) =
      (zeroPadded 2 hour).toList ++ ':' :: ((zeroPadded 2 minute).toList ++ ':' ::
        ((zeroPadded 2 second).toList ++ (fraction ++ c :: rest))) := by
    simp [clockDigits]
  unfold clockWithColons?
  rw [hshape, digits?_zeroPadded (by decide) (by omega)]
  simp only [Option.bind_eq_bind, Option.bind_some, expect?_cons]
  rw [digits?_zeroPadded (by decide) (by omega)]
  simp only [Option.bind_some, expect?_cons]
  rw [digits?_zeroPadded (by decide) (by omega)]
  simp only [Option.bind_some]
  rw [hfraction.fraction? rest hc hdot]
  simp only [Option.bind_some]
  unfold ofClock?
  rw [if_neg (by omega)]
  simp only
  rw [if_neg (by omega)]
  rfl

/-- A sign for no offset does not go on with the fraction, and says no offset. -/
theorem utcSigns_spec {sign : String} (h : sign ∈ utcSigns) :
    ∃ c rest, sign.toList = c :: rest ∧ c.isDigit = false ∧ c ≠ '.' ∧ zone? (c :: rest) = some 0 := by
  simp only [utcSigns, List.mem_cons, List.not_mem_nil, or_false] at h
  rcases h with rfl | rfl | rfl | rfl
  · exact ⟨'Z', [], by decide, by decide, by decide, rfl⟩
  · exact ⟨'z', [], by decide, by decide, by decide, rfl⟩
  · exact ⟨'+', "00:00".toList, by decide, by decide, by decide, by decide +kernel⟩
  · exact ⟨'-', "00:00".toList, by decide, by decide, by decide, by decide +kernel⟩

/-- The text of an instant in UTC is read as its seconds and what lies below. -/
theorem Stamp.read?_of_writesUtc {t : Instant} {s : String} (h : t.WritesUtc s) :
    Stamp.read? s = some ⟨t.nanos / 10 ^ 9, (t.nanos % 10 ^ 9).toNat⟩ := by
  obtain ⟨hreal, hyear, hhour, hminute, hsecond, hseparator, hfraction, hsign, hnanos⟩ := h
  rename_i d hour minute second nanos separator fraction sign
  obtain ⟨c, rest, hc, hdigit, hdot, hzone⟩ := utcSigns_spec hsign
  have hlt := hfraction.lt
  have hshape : (dateText d ++ String.singleton separator ++ clockDigits hour minute second ++
      fraction ++ sign).toList = (dateText d).toList ++ separator ::
        ((clockDigits hour minute second).toList ++ (fraction.toList ++ c :: rest)) := by
    simp [hc]
  unfold Stamp.read?
  rw [hshape, date?_dateText hreal (decide_eq_true hyear)]
  simp only [Option.bind_eq_bind, Option.bind_some]
  rw [if_pos (by simpa using hseparator),
    clockWithColons?_clockDigits hhour hminute hsecond hfraction rest hdigit hdot]
  simp only [Option.orElse_some, Option.bind_some, hzone]
  have hseconds : d.toDay * 86400 + ((hour * 3600 + minute * 60 + second : ℕ) : ℤ) - 0 =
      t.nanos / 10 ^ 9 := by
    rw [hnanos]
    push_cast
    omega
  have hrest : nanos = (t.nanos % 10 ^ 9).toNat := by
    rw [hnanos]
    omega
  rw [hseconds, ← hrest]

/-! ## The text of an instant -/

theorem isFraction_fractionText {n : ℕ} (h : n < 10 ^ 9) :
    IsFraction n (fractionText n).toList := by
  -- three, six or nine digits are written, as few as lose nothing
  have hwrite : ∀ {width m : ℕ}, 0 < width → m < 10 ^ width → m * 10 ^ 9 = n * 10 ^ width →
      IsFraction n ("." ++ zeroPadded width m).toList := by
    intro width m hw hm hexact
    have hlen := Text.length_zeroPadded hw hm
    refine .inr ⟨(zeroPadded width m).toList, fun h0 => ?_, Text.all_isDigit_zeroPadded _ _,
      by simp, ?_⟩
    · rw [h0] at hlen
      exact hw.ne hlen
    · rw [hlen, Text.valueOf_zeroPadded, hexact]
  unfold fractionText
  split_ifs with h0 h3 h6
  · exact .inl ⟨rfl, h0⟩
  · exact hwrite (by decide) (by omega) (by omega)
  · exact hwrite (by decide) (by omega) (by omega)
  · exact hwrite (by decide) h rfl

/-- The text of an instant in a year of four digits is one in UTC. -/
theorem Instant.writesUtc_text {t : Instant} (h : 0 ≤ t.date.year ∧ t.date.year ≤ 9999) :
    t.WritesUtc t.text := by
  obtain ⟨n, hn⟩ : ∃ n : ℕ, (t.nanos % nanosPerDay).toNat = n := ⟨_, rfl⟩
  have hday : (n : ℤ) = t.nanos % nanosPerDay := by
    unfold nanosPerDay at *
    omega
  have hlt : n < 86400000000000 := by
    unfold nanosPerDay at *
    omega
  have hshape : t.text = dateText t.date ++ String.singleton 'T' ++
      clockDigits (n / 1000000000 / 3600) (n / 1000000000 / 60 % 60) (n / 1000000000 % 60) ++
        fractionText (n % 1000000000) ++ "Z" := by
    unfold Instant.text localText clockText clockDigits Instant.date Instant.day
    rw [hn]
    simp only [String.append_assoc]
    rfl
  rw [hshape]
  refine .intro (Date.isReal_ofDay _) h (by omega) (by omega) (by omega) (by decide)
    (isFraction_fractionText (by omega)) (by decide) ?_
  rw [Instant.date, Date.toDay_ofDay, Instant.day]
  unfold nanosPerDay at *
  omega

theorem Instant.text_eq (t : Instant) : t.text.toList =
    (dateText t.date).toList ++ 'T' ::
      ((clockText (t.nanos % nanosPerDay).toNat).toList ++ ['Z']) := by
  simp [Instant.text, localText, Instant.date, Instant.day]

/-- A time in any other year has no reading. -/
theorem Stamp.read?_text_of_sign {t : Instant} (h : ¬ hasPlainYear t.date.year = true) :
    Stamp.read? t.text = none := by
  -- the sign stands where four digits are expected
  have hstart : ∃ c cs, t.text.toList = c :: cs ∧ c.isDigit = false := by
    rw [t.text_eq]
    unfold dateText yearText
    rw [if_neg h]
    split
    · exact ⟨'-', _, by simp; rfl, by decide⟩
    · exact ⟨'+', _, by simp; rfl, by decide⟩
  obtain ⟨c, cs, hcs, hc⟩ := hstart
  unfold Stamp.read?
  rw [hcs, date?_sign hc]
  rfl

end TradeWatch.Time

namespace TradeWatch.Column

open Time (Instant hasPlainYear)

theorem millisOfText?_of_writesUtc {t : Instant} {s : String} (h : t.WritesUtc s) :
    millisOfText? s = some t.millis := by
  unfold millisOfText?
  rw [Time.Stamp.read?_of_writesUtc h]
  simp only [Option.map_some, Time.Stamp.count, Instant.millis, Time.nanosPerMilli]
  congr 1
  omega

/-- What is stored for an instant: its milliseconds, if its year has four digits. -/
theorem storedMillis?_eq (t : Instant) :
    storedMillis? t = if hasPlainYear t.date.year then some t.millis else none := by
  unfold storedMillis?
  split
  · rename_i h
    exact millisOfText?_of_writesUtc (Instant.writesUtc_text (of_decide_eq_true h))
  · rename_i h
    unfold millisOfText?
    rw [Time.Stamp.read?_text_of_sign h]
    rfl

end TradeWatch.Column
