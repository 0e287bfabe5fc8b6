/-
Numbers in JSON text. The text of an integer of 64 bits and the text of a finite double are read as
the number they were written from, whatever follows them, unless it goes on with a number.
-/
import TradeWatch.Json.Printer
import TradeWatch.Json.Scan
import TradeWatch.Proofs.Decimal.Bits
import TradeWatch.Proofs.Decimal.Shortest
import TradeWatch.Proofs.Text.Digits

namespace TradeWatch.Json

open Decimal (Scientific Layout takeDigits)
open Text (EndsDigits endsDigits_cons valueOf digitsOf)

/-! ## Runs of digits -/

/-- The text does not go on with a part of a number. -/
def EndsNumber (rest : List Char) : Prop :=
  ∀ c cs, rest = c :: cs → c.isDigit = false ∧ c ≠ '.' ∧ c ≠ 'e' ∧ c ≠ 'E'

theorem EndsNumber.endsDigits {rest : List Char} (h : EndsNumber rest) : EndsDigits rest :=
  fun c cs e => (h c cs e).1

theorem endsNumber_nil : EndsNumber [] := fun c cs e => by cases e

theorem endsNumber_cons {c : Char} (cs : List Char)
    (h : c.isDigit = false ∧ c ≠ '.' ∧ c ≠ 'e' ∧ c ≠ 'E') : EndsNumber (c :: cs) := by
  intro d ds e
  cases e
  exact h

theorem takeDigits_append {ds rest : List Char} (hd : ds.all Char.isDigit = true)
    (hr : EndsDigits rest) : takeDigits (ds ++ rest) = (ds, rest) := by
  unfold takeDigits
  rw [Text.takeWhile_isDigit_append hd hr, Text.dropWhile_isDigit_append hd hr]

theorem someDigits_append {short : Fault} {ds rest : List Char} (hne : ds ≠ [])
    (hd : ds.all Char.isDigit = true) (hr : EndsDigits rest) :
    someDigits short (ds ++ rest) = .ok (ds, rest) := by
  unfold someDigits
  rw [takeDigits_append hd hr]
  simp [hne]

/-! ## The parts of a number -/

/-- Digits before the point: a zero, or digits that do not start with one. -/
inductive Whole : List Char → Prop
  | zero : Whole ['0']
  | cons {c : Char} {cs : List Char} (hc : c ≠ '0') (hd : (c :: cs).all Char.isDigit = true) :
    Whole (c :: cs)

theorem Whole.ofNat (n : ℕ) : Whole (digitsOf n) := by
  by_cases h : n = 0
  · subst h
    exact .zero
  · obtain ⟨c, cs, hd, -, hc⟩ := Text.exists_digitsOf_eq_cons h
    rw [hd]
    exact .cons hc (by rw [← hd]; exact Text.all_isDigit_digitsOf n)

/-- The first character of the whole digits is a digit. -/
theorem Whole.exists_eq_cons {ds : List Char} (h : Whole ds) :
    ∃ c cs, ds = c :: cs ∧ c.isDigit = true := by
  cases h with
  | zero => exact ⟨_, _, rfl, rfl⟩
  | cons hc hd => exact ⟨_, _, rfl, (Bool.and_eq_true _ _ ▸ hd).1⟩

theorem wholeDigits_append {short : Fault} {ds rest : List Char} (h : Whole ds)
    (hr : EndsDigits rest) : wholeDigits short (ds ++ rest) = .ok (ds, rest) := by
  cases h with
  | zero =>
    -- a zero stands alone: a digit behind it would be a fault
    cases rest with
    | nil => rfl
    | cons c cs =>
      have hc := hr c cs rfl
      simp [wholeDigits, hc]
  | @cons c cs hc hd =>
    have hcd : c.isDigit = true := (Bool.and_eq_true _ _ ▸ hd).1
    rw [List.cons_append]
    simp only [wholeDigits]
    rw [if_neg hc, if_pos hcd, ← List.cons_append, takeDigits_append hd hr]

/-- A fraction and its digits: a point and at least one digit, or nothing. -/
inductive Fraction : List Char → List Char → Prop
  | none : Fraction [] []
  | point {ds : List Char} (hne : ds ≠ []) (hd : ds.all Char.isDigit = true) :
    Fraction ('.' :: ds) ds

/-- An exponent and its value: a mark, a sign if need be and at least one digit, or nothing. -/
inductive Power : List Char → ℤ → Prop
  | none : Power [] 0
  | plain {mark : Char} {ds : List Char} (hmark : mark = 'e' ∨ mark = 'E') (hne : ds ≠ [])
    (hd : ds.all Char.isDigit = true) : Power (mark :: ds) (valueOf ds)
  | signed {mark : Char} {ds : List Char} (minus : Bool) (hmark : mark = 'e' ∨ mark = 'E')
    (hne : ds ≠ []) (hd : ds.all Char.isDigit = true) :
    Power (mark :: (if minus then '-' else '+') :: ds)
      (if minus then -(valueOf ds : ℤ) else valueOf ds)

theorem takeSign_of_isDigit {ds : List Char} (hne : ds ≠ []) (hd : ds.all Char.isDigit = true)
    (rest : List Char) : Decimal.takeSign (ds ++ rest) = (false, ds ++ rest) := by
  obtain ⟨c, cs, rfl⟩ := List.exists_cons_of_ne_nil hne
  have hc : c.isDigit = true := (Bool.and_eq_true _ _ ▸ hd).1
  rw [List.cons_append]
  unfold Decimal.takeSign
  split
  · rename_i h
    rw [(List.cons.inj h).1] at hc
    exact absurd hc (by decide)
  · rename_i h
    rw [(List.cons.inj h).1] at hc
    exact absurd hc (by decide)
  · rfl

/-- What stands behind digits and a fraction is no further digit and no point. -/
theorem Power.endsDigits {power rest : List Char} {e : ℤ} (h : Power power e)
    (hr : EndsNumber rest) : EndsDigits (power ++ rest) := by
  have hmarked : ∀ {mark : Char} (cs : List Char), mark = 'e' ∨ mark = 'E' →
      EndsDigits (mark :: cs) := by
    rintro mark cs (rfl | rfl) <;> exact endsDigits_cons _ (by decide)
  cases h with
  | none => exact hr.endsDigits
  | plain hmark hne hd => exact hmarked _ hmark
  | signed minus hmark hne hd => exact hmarked _ hmark

/-- The parts of a number are read, whatever follows that is no part of it. -/
theorem numberParts_append (short : Fault) (negative : Bool)
    {whole fraction part power rest : List Char} {e : ℤ} (hw : Whole whole)
    (hf : Fraction fraction part) (hp : Power power e) (hr : EndsNumber rest) :
    numberParts short negative (whole ++ (fraction ++ (power ++ rest))) =
      .ok (⟨negative, whole, part, e, part.isEmpty && power.isEmpty⟩, rest) := by
  have hdigits := hp.endsDigits hr
  have hmark : ∀ {mark : Char}, mark = 'e' ∨ mark = 'E' → mark ≠ '.' := by
    rintro mark (rfl | rfl) <;> decide
  have hsign : ∀ (minus : Bool) (cs : List Char),
      Decimal.takeSign ((if minus then '-' else '+') :: cs) = (minus, cs) := by
    rintro (_ | _) cs <;> rfl
  unfold numberParts
  cases hf with
  | none =>
    rw [List.nil_append, wholeDigits_append hw hdigits]
    cases hp with
    | none =>
      cases rest with
      | nil => rfl
      | cons c cs =>
        obtain ⟨-, hdot, he, hE⟩ := hr c cs rfl
        simp [hdot, he, hE, Bind.bind, Except.bind]
    | plain hm hne hd =>
      simp [hm, hmark hm, takeSign_of_isDigit hne hd, someDigits_append hne hd hr.endsDigits,
        Bind.bind, Except.bind]
    | signed minus hm hne hd =>
      simp [hm, hmark hm, hsign, someDigits_append hne hd hr.endsDigits, Bind.bind, Except.bind]
  | point hne hd =>
    have hpart : part.isEmpty = false := by simp [hne]
    rw [List.cons_append, wholeDigits_append hw (endsDigits_cons _ (by decide))]
    simp only [Bind.bind, Except.bind, someDigits_append hne hd hdigits, hpart]
    cases hp with
    | none =>
      cases rest with
      | nil => rfl
      | cons c cs =>
        obtain ⟨-, -, he, hE⟩ := hr c cs rfl
        simp [he, hE]
    | plain hm hne hd =>
      simp [hm, takeSign_of_isDigit hne hd, someDigits_append hne hd hr.endsDigits]
    | signed minus hm hne hd =>
      simp [hm, hsign, someDigits_append hne hd hr.endsDigits]

/-! ## Decimals -/

/-- The parts of a number stand for a decimal. -/
def NumberParts.scientific (p : NumberParts) : Scientific :=
  ⟨valueOf (p.whole ++ p.part), p.exponent - p.part.length⟩

/-- A text that is read, whatever follows, as the parts of a decimal with a point or an exponent. -/
structure Writes (cs : List Char) (d : Scientific) : Prop where
  starts : ∃ c rest, cs = c :: rest ∧ c.isDigit = true
  reads : ∀ short negative rest, EndsNumber rest → ∃ p, numberParts short negative (cs ++ rest) =
    .ok (p, rest) ∧ p.negative = negative ∧ p.integral = false ∧ p.scientific.value = d.value

theorem writes_point {whole part : List Char} {d : Scientific} (hw : Whole whole) (hne : part ≠ [])
    (hp : part.all Char.isDigit = true)
    (hv : (⟨valueOf (whole ++ part), -part.length⟩ : Scientific).value = d.value) :
    Writes (whole ++ '.' :: part) d := by
  refine ⟨?_, fun short negative rest hr => ?_⟩
  · obtain ⟨c, cs, rfl, hc⟩ := hw.exists_eq_cons
    exact ⟨c, _, rfl, hc⟩
  · rw [List.append_assoc]
    refine ⟨_, numberParts_append short negative hw (.point hne hp) .none hr, rfl, ?_, ?_⟩
    · simp [hne]
    · simpa [NumberParts.scientific] using hv

theorem writes_exponent {whole part es : List Char} {d : Scientific} (minus : Bool)
    (hw : Whole whole) (hp : part.all Char.isDigit = true) (hne : es ≠ [])
    (he : es.all Char.isDigit = true)
    (hv : (⟨valueOf (whole ++ part),
      (if minus then -(valueOf es : Int) else valueOf es) - part.length⟩ : Scientific).value = d.value) :
    Writes (whole ++ ((if part = [] then [] else '.' :: part) ++
      'e' :: (if minus then '-' else '+') :: es)) d := by
  have hfraction : Fraction (if part = [] then [] else '.' :: part) part := by
    split
    · rename_i hpart
      exact hpart ▸ .none
    · rename_i hpart
      exact .point hpart hp
  have hpower : Power ('e' :: (if minus then '-' else '+') :: es) _ :=
    .signed minus (.inl rfl) hne he
  refine ⟨?_, fun short negative rest hr => ?_⟩
  · obtain ⟨c, cs, rfl, hc⟩ := hw.exists_eq_cons
    exact ⟨c, _, rfl, hc⟩
  · rw [List.append_assoc, List.append_assoc]
    refine ⟨_, numberParts_append short negative hw hfraction hpower hr, rfl, ?_, hv⟩
    simp

theorem scientific_value_mul_pow (n k : ℕ) (e : ℤ) :
    (⟨10 ^ k * n, e - k⟩ : Scientific).value = (⟨n, e⟩ : Scientific).value := by
  unfold Scientific.value
  simp only
  rw [zpow_sub₀ (by norm_num), zpow_natCast]
  push_cast
  field_simp

theorem all_isDigit_zeros (n : ℕ) : (List.replicate n '0').all Char.isDigit = true :=
  List.all_eq_true.2 fun c hc => by rw [List.eq_of_mem_replicate hc]; rfl

/-- Digits behind the point, with zeros between. -/
theorem writes_behindPoint {d : Scientific}
    (h : d.exponent + (digitsOf d.digits).length - 1 < 0) :
    Writes (Decimal.positional (digitsOf d.digits)
      (d.exponent + (digitsOf d.digits).length - 1)) d := by
  have hall := Text.all_isDigit_digitsOf d.digits
  have hval := Text.valueOf_digitsOf d.digits
  have hne := Text.digitsOf_ne_nil d.digits
  unfold Decimal.positional
  generalize digitsOf d.digits = ds at *
  rw [if_pos h]
  generalize hn : (-(d.exponent + ds.length - 1) - 1).toNat = n
  -- behind the point stand the zeros and then the digits, whose value the zeros do not change
  have hshape : ['0', '.'] ++ List.replicate n '0' ++ ds =
      ['0'] ++ '.' :: (List.replicate n '0' ++ ds) := by simp
  have hv : valueOf (['0'] ++ (List.replicate n '0' ++ ds)) = d.digits := by
    rw [show ['0'] = List.replicate 1 '0' from rfl, Text.valueOf_zeros_append,
      Text.valueOf_zeros_append, hval]
  have he : -((List.replicate n '0' ++ ds).length : ℤ) = d.exponent := by
    rw [List.length_append, List.length_replicate]
    omega
  rw [hshape]
  refine writes_point .zero (by simp [hne]) ?_ ?_
  · rw [List.all_append, all_isDigit_zeros, hall]; rfl
  · rw [hv, he]

/-- Digits before the point, with zeros between, or on both sides of it. -/
theorem writes_beforePoint {d : Scientific} (hd : d.digits ≠ 0)
    (h : ¬ d.exponent + (digitsOf d.digits).length - 1 < 0) :
    Writes (Decimal.positional (digitsOf d.digits)
      (d.exponent + (digitsOf d.digits).length - 1)) d := by
  have hall := Text.all_isDigit_digitsOf d.digits
  have hval := Text.valueOf_digitsOf d.digits
  obtain ⟨c, cs, hcs, -, hc⟩ := Text.exists_digitsOf_eq_cons hd
  unfold Decimal.positional
  generalize digitsOf d.digits = ds at *
  rw [if_neg h]
  generalize hw : (d.exponent + ds.length - 1).toNat + 1 = w
  simp only
  -- either zeros fill up the digits as far as the point, or the point splits them
  by_cases hlen : ds.length ≤ w
  · have hafter : (ds.drop w).isEmpty = true := by simp [hlen]
    have hzeros : ds ++ List.replicate (w - ds.length) '0' ++ ['0'] =
        ds ++ List.replicate (w - ds.length + 1) '0' := by
      rw [List.append_assoc, ← List.replicate_succ']
    have hwhole : (ds ++ List.replicate (w - ds.length) '0').all Char.isDigit = true := by
      rw [List.all_append, hall, all_isDigit_zeros]; rfl
    rw [if_pos hafter, List.take_of_length_le hlen]
    refine writes_point ?_ (by simp) (by simp) ?_
    · rw [hcs] at hwhole ⊢
      exact .cons hc hwhole
    · rw [hzeros, Text.valueOf_append_zeros, hval,
        show -(['0'].length : ℤ) = d.exponent - ((w - ds.length + 1 : ℕ) : ℤ) by
          simp only [List.length_singleton]; omega]
      exact scientific_value_mul_pow d.digits _ d.exponent
  · have hafter : ¬ (ds.drop w).isEmpty = true := by simp; omega
    have hsplit : (ds.take w ++ ds.drop w).all Char.isDigit = true := by
      rw [List.take_append_drop, hall]
    have he : -((ds.drop w).length : ℤ) = d.exponent := by
      rw [List.length_drop]
      omega
    rw [List.all_append, Bool.and_eq_true] at hsplit
    rw [if_neg hafter, show w - ds.length = 0 by omega, List.replicate_zero, List.append_nil]
    refine writes_point ?_ (by simp; omega) hsplit.2 ?_
    · obtain ⟨k, rfl⟩ : ∃ k, w = k + 1 := ⟨w - 1, by omega⟩
      rw [hcs, List.take_succ_cons] at hsplit ⊢
      exact .cons hc hsplit.1
    · rw [List.take_append_drop, hval, he]

/-- Digits with an exponent. -/
theorem writes_withExponent {d : Scientific} (hd : d.digits ≠ 0) :
    Writes (Decimal.withExponent "+" (digitsOf d.digits)
      (d.exponent + (digitsOf d.digits).length - 1)) d := by
  have hall := Text.all_isDigit_digitsOf d.digits
  have hval := Text.valueOf_digitsOf d.digits
  obtain ⟨c, cs, hcs, -, hc⟩ := Text.exists_digitsOf_eq_cons hd
  unfold Decimal.withExponent
  rw [hcs] at hall hval ⊢
  generalize he10 : d.exponent + (c :: cs).length - 1 = e10
  have hall' := Bool.and_eq_true _ _ ▸ hall
  have hsign : (if e10 < 0 then "-" else "+").toList =
      [if decide (e10 < 0) then '-' else '+'] := by
    split <;> rename_i h <;> simp [h]
  have hpoint : (if (c :: cs).length ≤ 1 then [] else '.' :: (c :: cs).drop 1) =
      if cs = [] then [] else '.' :: cs := by
    cases cs <;> simp
  have hshape : (c :: cs).take 1 ++ (if cs = [] then [] else '.' :: cs) ++
      'e' :: ([if decide (e10 < 0) then '-' else '+'] ++ digitsOf e10.natAbs) =
        [c] ++ ((if cs = [] then [] else '.' :: cs) ++
          'e' :: (if decide (e10 < 0) then '-' else '+') :: digitsOf e10.natAbs) := by simp
  have he : (if decide (e10 < 0) = true then -(valueOf (digitsOf e10.natAbs) : ℤ)
      else valueOf (digitsOf e10.natAbs)) - cs.length = d.exponent := by
    rw [Text.valueOf_digitsOf]
    rw [List.length_cons] at he10
    split <;> rename_i h <;> simp at h <;> omega
  rw [hsign, hpoint, hshape]
  refine writes_exponent (decide (e10 < 0)) (.cons hc (by simpa using hall'.1)) hall'.2
    (Text.digitsOf_ne_nil _) (Text.all_isDigit_digitsOf _) ?_
  rw [he]
  exact congrArg (fun n => Scientific.value ⟨n, d.exponent⟩) hval

/-- What is written for a decimal is read as a decimal of the same value. -/
theorem writes_writeChars (d : Scientific) : Writes (Layout.json.writeChars d) d := by
  unfold Layout.writeChars
  simp only
  split
  · rename_i h
    show Writes (['0'] ++ '.' :: ['0']) d
    refine writes_point .zero (by simp) (by simp) ?_
    unfold Scientific.value
    simp [h, valueOf]
  · rename_i h
    split
    · by_cases hneg : d.exponent + (digitsOf d.digits).length - 1 < 0
      · exact writes_behindPoint hneg
      · exact writes_beforePoint h hneg
    · exact writes_withExponent h

/-! ## Numbers with a sign -/

/-- The sign in front of a number. -/
def sign (negative : Bool) : List Char :=
  if negative then ['-'] else []

/-- No other character starts a number. -/
theorem ne_of_startsNumber {c : Char} (hc : c = '-' ∨ c.isDigit = true) (d : Char) (hsign : d ≠ '-')
    (hdigit : d.isDigit = false) : c ≠ d := by
  rintro rfl
  rcases hc with hc | hc
  · exact hsign hc
  · rw [hdigit] at hc
    cases hc

/-- A sign is taken off just where one was written. -/
theorem match_sign {α : Type} (read : Bool → Reader α) (negative : Bool) {cs : List Char}
    (hs : ∃ c ds, cs = c :: ds ∧ c.isDigit = true) (rest : List Char) :
    (match sign negative ++ cs ++ rest with
      | '-' :: cs => read true cs
      | cs => read false cs) = read negative (cs ++ rest) := by
  obtain ⟨c, ds, rfl, hc⟩ := hs
  cases negative with
  | true => rfl
  | false =>
    -- the number starts with a digit
    have hne : c ≠ '-' := by rintro rfl; exact absurd hc (by decide)
    rw [show sign false ++ c :: ds ++ rest = c :: ds ++ rest from rfl]
    split
    · rename_i heq
      exact absurd (List.cons.inj heq).1 hne
    · rfl

theorem number_eq_of_parts (negative : Bool) {cs rest : List Char} {p : NumberParts}
    (hs : ∃ c ds, cs = c :: ds ∧ c.isDigit = true)
    (hp : numberParts .endOfInput negative (cs ++ rest) = .ok (p, rest)) :
    number (sign negative ++ cs ++ rest) = p.value >>= fun v => .ok (v, rest) := by
  unfold number
  refine (match_sign (fun negative cs => numberParts .endOfInput negative cs >>= fun parts =>
    parts.1.value >>= fun v => .ok (v, parts.2)) negative hs rest).trans ?_
  rw [hp]
  rfl

theorem number_of_parts (negative : Bool) {cs rest : List Char} {p : NumberParts} {v : Json}
    (hs : ∃ c ds, cs = c :: ds ∧ c.isDigit = true)
    (hp : numberParts .endOfInput negative (cs ++ rest) = .ok (p, rest)) (hv : p.value = .ok v) :
    number (sign negative ++ cs ++ rest) = .ok (v, rest) := by
  rw [number_eq_of_parts negative hs hp, hv]
  rfl

theorem toList_write {x : Float} (h : x.isFinite = true) :
    (Layout.json.write x).toList = sign (Decimal.isNegative x) ++
      Layout.json.writeChars (Decimal.shortest (Decimal.magnitudeBits x)) := by
  unfold Layout.write
  rw [Decimal.isNaN_of_isFinite h, Decimal.isInf_of_isFinite h]
  unfold sign
  cases Decimal.isNegative x <;> simp

/-- The text of a finite double is read as that double. -/
theorem number_float {x : Float} (h : x.isFinite = true) {rest : List Char} (hr : EndsNumber rest) :
    number ((Layout.json.write x).toList ++ rest) = .ok (.float x, rest) := by
  have hw := writes_writeChars (Decimal.shortest (Decimal.magnitudeBits x))
  obtain ⟨p, hp, hneg, hint, hval⟩ := hw.reads .endOfInput (Decimal.isNegative x) rest hr
  rw [toList_write h]
  refine number_of_parts _ hw.starts hp ?_
  -- what is read has the value of the shortest decimal, and so its nearest double
  have hx : Decimal.ofScientific p.negative p.scientific = x := by
    unfold Decimal.ofScientific
    rw [Scientific.nearestBits_congr hval,
      Decimal.nearestBits_shortest ((Decimal.isFinite_iff x).1 h), hneg,
      Decimal.ofMagnitudeBits_magnitudeBits]
  unfold NumberParts.value
  simp only [hint, Bool.false_eq_true, false_and, if_false]
  rw [show (⟨valueOf (p.whole ++ p.part), p.exponent - p.part.length⟩ : Scientific) =
    p.scientific from rfl, hx, Decimal.isInf_of_isFinite h]
  rfl

theorem toList_intDigits (n : Int) :
    (Text.intDigits n).toList = sign (decide (n < 0)) ++ digitsOf n.natAbs := by
  unfold Text.intDigits sign
  by_cases hn : n < 0 <;> simp [hn]

/-- The text of an integer of 64 bits, signed or not, is read as that integer. -/
theorem number_int {n : Int} (h : -(signedEnd : Int) ≤ n ∧ n < words64) {rest : List Char}
    (hr : EndsNumber rest) : number ((Text.intDigits n).toList ++ rest) = .ok (.int n, rest) := by
  rw [toList_intDigits]
  refine number_of_parts _ (Whole.ofNat _).exists_eq_cons
    (numberParts_append .endOfInput _ (Whole.ofNat _) .none .none hr) ?_
  unfold NumberParts.value
  simp only [Text.valueOf_digitsOf]
  by_cases hn : n < 0
  · rw [if_neg (by simp [hn]), if_pos ⟨rfl, by simpa using hn, by omega, by omega⟩]
    congr 2
    omega
  · rw [if_pos ⟨rfl, by simpa using hn, by omega⟩]
    congr 2
    omega

/-! ## Written numbers -/

/-- The text of a number without its sign, and the decimal that it stands for. -/
inductive Numeral : List Char → Scientific → Prop
  | intro {whole fraction part power : List Char} {e : ℤ} (hw : Whole whole)
    (hf : Fraction fraction part) (hp : Power power e) :
    Numeral (whole ++ (fraction ++ power)) ⟨valueOf (whole ++ part), e - part.length⟩

theorem Numeral.exists_eq_cons {cs : List Char} {d : Scientific} (h : Numeral cs d) :
    ∃ c ds, cs = c :: ds ∧ c.isDigit = true := by
  obtain ⟨hw, -, -⟩ := h
  obtain ⟨c, ds, rfl, hc⟩ := hw.exists_eq_cons
  exact ⟨c, _, rfl, hc⟩

/-- A number is read in its parts, and one without a point and an exponent as such. -/
theorem Numeral.exists_parts {cs : List Char} {d : Scientific} (h : Numeral cs d)
    (negative : Bool) :
    ∃ p : NumberParts, p.negative = negative ∧ p.scientific = d ∧
      (p.integral = true → p.scientific = ⟨valueOf p.whole, 0⟩) ∧
      ∀ (short : Fault) {rest : List Char}, EndsNumber rest →
        numberParts short negative (cs ++ rest) = .ok (p, rest) := by
  obtain @⟨whole, fraction, part, power, e, hw, hf, hp⟩ := h
  refine ⟨⟨negative, whole, part, e, part.isEmpty && power.isEmpty⟩, rfl, rfl, fun hint => ?_,
    fun short rest hr => ?_⟩
  · rw [Bool.and_eq_true, List.isEmpty_iff, List.isEmpty_iff] at hint
    obtain ⟨rfl, rfl⟩ := hint
    cases hp
    simp [NumberParts.scientific]
  · rw [List.append_assoc, List.append_assoc]
    exact numberParts_append short negative hw hf hp hr

theorem ofInt_eq_ofScientific (n : ℤ) :
    Decimal.ofInt n = Decimal.ofScientific (decide (n < 0)) ⟨n.natAbs, 0⟩ := by
  unfold Decimal.ofInt Decimal.ofScientific
  rw [Scientific.nearestBits_eq]
  simp [Scientific.numerator, Scientific.denominator, pow10]

/-- Whether it is kept as an integer or not, a number has the double nearest to it. -/
theorem NumberParts.value_cases {p : NumberParts}
    (hint : p.integral = true → p.scientific = ⟨valueOf p.whole, 0⟩)
    (hfinite : (Decimal.ofScientific p.negative p.scientific).isInf = false) :
    (∃ n, p.value = .ok (.int n) ∧
        Decimal.ofInt n = Decimal.ofScientific p.negative p.scientific) ∨
      p.value = .ok (.float (Decimal.ofScientific p.negative p.scientific)) := by
  unfold value
  simp only
  split_ifs with hplain hminus hinf
  · obtain ⟨hintegral, hneg, -⟩ := hplain
    refine .inl ⟨_, rfl, ?_⟩
    have hnonneg : ¬ (valueOf p.whole : ℤ) < 0 := by omega
    rw [hint hintegral, ofInt_eq_ofScientific]
    simp [hneg, hnonneg]
  · obtain ⟨hintegral, hneg, hzero, -⟩ := hminus
    refine .inl ⟨_, rfl, ?_⟩
    rw [hint hintegral, ofInt_eq_ofScientific, hneg]
    simp [Nat.pos_of_ne_zero hzero]
  · exact absurd hinf (by rw [show (⟨_, _⟩ : Scientific) = p.scientific from rfl, hfinite]; simp)
  · exact .inr rfl

end TradeWatch.Json
