/-
What readers leave behind. A reader takes what it needs from the front of the text, so what it
leaves is an end of the text. A value of the type that a reader asks for ends where it ends for
someone who passes over it.
-/
import TradeWatch.Json.Skip
import TradeWatch.Proofs.FirstFailure
import TradeWatch.Proofs.Json.Number

namespace TradeWatch.Json

variable {α β κ : Type} {cs rest : List Char}

/-- The reader leaves an end of the text. -/
def TakesFront (read : Reader α) : Prop :=
  ∀ {cs : List Char} {x : α} {rest : List Char}, read cs = .ok (x, rest) → rest <:+ cs

theorem skipSpace_suffix (cs : List Char) : skipSpace cs <:+ cs :=
  List.dropWhile_suffix _

theorem rest_eq {x y : α} {left : List Char} (h : (.ok (x, left) : Except Fault _) = .ok (y, rest)) :
    left = rest :=
  congrArg Prod.snd (Except.ok.inj h)

/-- The text goes on behind the blanks in front of it. -/
theorem suffix_of_skipSpace {c : Char} {after : List Char} (h : skipSpace cs = c :: after) :
    after <:+ cs :=
  (List.suffix_cons c after).trans (h ▸ skipSpace_suffix cs)

theorem takesFront_word (ws : List Char) : TakesFront (word ws) := by
  induction ws with
  | nil =>
    intro cs x rest h
    cases h
    exact List.suffix_refl _
  | cons w ws ih =>
    intro cs x rest h
    cases cs with
    | nil => cases h
    | cons c cs =>
      unfold word at h
      split at h
      · exact (ih h).trans (List.suffix_cons c cs)
      · cases h

/-! ## Strings -/

theorem takesFront_hex4 : TakesFront hex4 := by
  intro cs x rest h
  unfold hex4 at h
  dsimp only at h
  split at h
  · cases h
  · split at h
    · cases h
      exact List.drop_suffix 4 cs
    · cases h

theorem takesFront_lowerHalf : TakesFront lowerHalf := by
  intro cs x rest h
  unfold lowerHalf at h
  split at h
  · cases h
  · cases h
  · rename_i after
    obtain ⟨⟨n, left⟩, hn, h⟩ := bind_eq_ok_iff.1 h
    dsimp only at h
    split at h
    · cases h
      exact (takesFront_hex4 hn).trans ((List.suffix_cons 'u' after).trans (List.suffix_cons '\\' _))
    · cases h
  · cases h

theorem takesFront_codePoint : TakesFront codePoint := by
  intro cs x rest h
  obtain ⟨⟨n, left⟩, hn, h⟩ := bind_eq_ok_iff.1 h
  dsimp only at h
  split at h
  · cases h
  · split at h
    · obtain ⟨⟨m, left'⟩, hm, h⟩ := bind_eq_ok_iff.1 h
      obtain rfl := rest_eq h
      exact (takesFront_lowerHalf hm).trans (takesFront_hex4 hn)
    · cases h
      exact takesFront_hex4 hn

theorem takesFront_escape : TakesFront escape := by
  intro cs x rest h
  cases cs with
  | nil => cases h
  | cons c cs =>
    rw [escape] at h
    split at h
    · exact (takesFront_codePoint h).trans (List.suffix_cons c cs)
    · split at h
      · cases h
        exact List.suffix_cons c _
      · cases h

theorem takesFront_skipEscape : TakesFront skipEscape := by
  intro cs x rest h
  cases cs with
  | nil => cases h
  | cons c cs =>
    rw [skipEscape] at h
    split at h
    · obtain ⟨⟨n, left⟩, hn, h⟩ := bind_eq_ok_iff.1 h
      obtain rfl := rest_eq h
      exact (takesFront_hex4 hn).trans (List.suffix_cons c cs)
    · split at h
      · obtain rfl := rest_eq h
        exact List.suffix_cons c cs
      · cases h

theorem takesFront_stringChars {escaped : Reader Char} (hescaped : TakesFront escaped) (fuel : ℕ) :
    TakesFront (stringChars escaped fuel) := by
  induction fuel with
  | zero =>
    intro cs x rest h
    cases h
  | succ fuel ih =>
    intro cs x rest h
    cases cs with
    | nil => cases h
    | cons c cs =>
      unfold stringChars at h
      split at h
      · cases h
        exact List.suffix_cons c _
      · split at h
        · obtain ⟨⟨e, left⟩, he, h⟩ := bind_eq_ok_iff.1 h
          obtain ⟨⟨chars, left'⟩, hchars, h⟩ := bind_eq_ok_iff.1 h
          cases h
          exact ((ih hchars).trans (hescaped he)).trans (List.suffix_cons c cs)
        · split at h
          · cases h
          · obtain ⟨⟨chars, left⟩, hchars, h⟩ := bind_eq_ok_iff.1 h
            cases h
            exact (ih hchars).trans (List.suffix_cons c cs)

theorem takesFront_string : TakesFront string := by
  intro cs x rest h
  obtain ⟨⟨chars, left⟩, hchars, h⟩ := bind_eq_ok_iff.1 h
  cases h
  exact takesFront_stringChars takesFront_escape _ hchars

theorem takesFront_skipString : TakesFront skipString := by
  intro cs x rest h
  obtain ⟨⟨chars, left⟩, hchars, h⟩ := bind_eq_ok_iff.1 h
  cases h
  exact takesFront_stringChars takesFront_skipEscape _ hchars

/-! ## Numbers -/

theorem takeDigits_suffix (cs : List Char) : (Decimal.takeDigits cs).2 <:+ cs :=
  List.dropWhile_suffix _

theorem takeSign_suffix (cs : List Char) : (Decimal.takeSign cs).2 <:+ cs := by
  unfold Decimal.takeSign
  split
  · exact List.suffix_cons _ _
  · exact List.suffix_cons _ _
  · exact List.suffix_refl _

theorem takesFront_wholeDigits (short : Fault) : TakesFront (wholeDigits short) := by
  intro cs x rest h
  cases cs with
  | nil => cases h
  | cons c cs =>
    rw [wholeDigits] at h
    split at h
    · split at h
      · cases h
      · cases h
        exact List.suffix_cons c _
    · split at h
      · cases h
        exact takeDigits_suffix (c :: cs)
      · cases h

theorem takesFront_someDigits (short : Fault) : TakesFront (someDigits short) := by
  intro cs x rest h
  unfold someDigits at h
  dsimp only at h
  split at h
  · cases h
  · cases h
    exact takeDigits_suffix cs

/-- An exponent is read if there is one. -/
theorem suffix_of_exponent {short : Fault} {x plain : NumberParts}
    {scaled : List Char → List Char × List Char → NumberParts}
    (h : (match cs with
      | [] => .ok (plain, cs)
      | c :: after =>
        if c = 'e' ∨ c = 'E' then do
          let digits ← someDigits short (Decimal.takeSign after).2
          .ok (scaled after digits, digits.2)
        else .ok (plain, cs)) = Except.ok (x, rest)) : rest <:+ cs := by
  split at h
  · cases h
    exact List.suffix_refl _
  · rename_i c after
    split at h
    · obtain ⟨digits, hdigits, h⟩ := bind_eq_ok_iff.1 h
      obtain rfl := rest_eq h
      exact ((takesFront_someDigits short hdigits).trans (takeSign_suffix after)).trans
        (List.suffix_cons c after)
    · cases h
      exact List.suffix_refl _

theorem takesFront_numberParts (short : Fault) (negative : Bool) :
    TakesFront (numberParts short negative) := by
  intro cs x rest h
  obtain ⟨⟨whole, left⟩, hwhole, h⟩ := bind_eq_ok_iff.1 h
  have hleft := takesFront_wholeDigits short hwhole
  dsimp only at h
  split at h
  · obtain ⟨⟨part, left'⟩, hpart, h⟩ := bind_eq_ok_iff.1 h
    exact (((suffix_of_exponent h).trans (takesFront_someDigits short hpart)).trans
      (List.suffix_cons _ _)).trans hleft
  · obtain ⟨digits, hdigits, h⟩ := bind_eq_ok_iff.1 h
    cases hdigits
    exact (suffix_of_exponent h).trans hleft

theorem takesFront_number : TakesFront number := by
  intro cs x rest h
  unfold number at h
  dsimp only at h
  split at h
  · obtain ⟨⟨parts, left⟩, hparts, h⟩ := bind_eq_ok_iff.1 h
    obtain ⟨v, hv, h⟩ := bind_eq_ok_iff.1 h
    cases h
    exact (takesFront_numberParts _ true hparts).trans (List.suffix_cons _ _)
  · obtain ⟨⟨parts, left⟩, hparts, h⟩ := bind_eq_ok_iff.1 h
    obtain ⟨v, hv, h⟩ := bind_eq_ok_iff.1 h
    cases h
    exact takesFront_numberParts _ false hparts

theorem takesFront_skipNumber : TakesFront skipNumber := by
  intro cs x rest h
  unfold skipNumber at h
  dsimp only at h
  split at h
  · obtain ⟨⟨parts, left⟩, hparts, h⟩ := bind_eq_ok_iff.1 h
    cases h
    exact (takesFront_numberParts _ true hparts).trans (List.suffix_cons _ _)
  · obtain ⟨⟨parts, left⟩, hparts, h⟩ := bind_eq_ok_iff.1 h
    cases h
    exact takesFront_numberParts _ false hparts

/-! ## Lists and objects -/

/-- The text behind what a step found. -/
def Step.text : Step → List Char
  | .close rest => rest
  | .more rest => rest

theorem suffix_of_nextElement {first : Bool} {step : Step} (h : nextElement first cs = .ok step) :
    step.text <:+ cs := by
  unfold nextElement at h
  split at h
  · cases h
  · rename_i c after hcs
    have hafter := suffix_of_skipSpace hcs
    split at h
    · cases h
      exact hafter
    · split at h
      · cases h
        exact hcs ▸ skipSpace_suffix cs
      · split at h
        · split at h
          · cases h
          · rename_i d after' hafter'
            split at h
            · cases h
            · cases h
              exact (hafter' ▸ skipSpace_suffix after).trans hafter
        · cases h

/-- Looking for a member takes at least one character. -/
theorem length_of_nextMember {first : Bool} {step : Step} (h : nextMember first cs = .ok step) :
    step.text <:+ cs ∧ step.text.length < cs.length := by
  have hskip : ∀ {cs after : List Char} {c : Char}, skipSpace cs = c :: after →
      after <:+ cs ∧ after.length < cs.length := fun {cs after c} hcs => by
    refine ⟨suffix_of_skipSpace hcs, ?_⟩
    have hle := (skipSpace_suffix cs).length_le
    rw [hcs, List.length_cons] at hle
    exact hle
  unfold nextMember at h
  split at h
  · cases h
  · rename_i c after hcs
    have hafter := hskip hcs
    split at h
    · cases h
      exact hafter
    · split at h
      · split at h
        · cases h
          exact hafter
        · cases h
      · split at h
        · split at h
          · cases h
          · rename_i d after' hafter'
            split at h
            · cases h
              exact ⟨(hskip hafter').1.trans hafter.1, Nat.lt_trans (hskip hafter').2 hafter.2⟩
            · cases h
        · cases h

theorem takesFront_colon : TakesFront colon := by
  intro cs x rest h
  unfold colon at h
  split at h
  · cases h
  · rename_i c after hcs
    split at h
    · cases h
      exact suffix_of_skipSpace hcs
    · cases h

theorem takesFront_elements {element : Reader α} (helement : TakesFront element) (fuel : ℕ)
    (first : Bool) : TakesFront (elements element fuel first) := by
  induction fuel generalizing first with
  | zero =>
    intro cs x rest h
    cases h
  | succ fuel ih =>
    intro cs x rest h
    obtain ⟨step, hstep, h⟩ := bind_eq_ok_iff.1 h
    have hfront := suffix_of_nextElement hstep
    cases step with
    | close left =>
      cases h
      exact hfront
    | more left =>
      obtain ⟨⟨y, left'⟩, hy, h⟩ := bind_eq_ok_iff.1 h
      obtain ⟨⟨ys, left''⟩, hys, h⟩ := bind_eq_ok_iff.1 h
      cases h
      exact ((ih false hys).trans (helement hy)).trans hfront

theorem takesFront_members {key : Reader κ} {value : Reader α} (hkey : TakesFront key)
    (hvalue : TakesFront value) (fuel : ℕ) (first : Bool) :
    TakesFront (members key value fuel first) := by
  induction fuel generalizing first with
  | zero =>
    intro cs x rest h
    cases h
  | succ fuel ih =>
    intro cs x rest h
    obtain ⟨step, hstep, h⟩ := bind_eq_ok_iff.1 h
    have hfront := (length_of_nextMember hstep).1
    cases step with
    | close left =>
      cases h
      exact hfront
    | more left =>
      obtain ⟨⟨k, left₁⟩, hk, h⟩ := bind_eq_ok_iff.1 h
      obtain ⟨⟨u, left₂⟩, hcolon, h⟩ := bind_eq_ok_iff.1 h
      obtain ⟨⟨v, left₃⟩, hv, h⟩ := bind_eq_ok_iff.1 h
      obtain ⟨⟨vs, left₄⟩, hvs, h⟩ := bind_eq_ok_iff.1 h
      cases h
      exact ((((ih false hvs).trans (hvalue hv)).trans (takesFront_colon hcolon)).trans
        (hkey hk)).trans hfront

theorem takesFront_skipNested (fuel : ℕ) : TakesFront (skipNested fuel) := by
  induction fuel with
  | zero =>
    intro cs x rest h
    cases h
  | succ fuel ih =>
    intro cs x rest h
    unfold skipNested at h
    split at h
    · cases h
    · rename_i c after hcs
      have hafter := suffix_of_skipSpace hcs
      -- one case for each kind of value
      split at h
      · exact (takesFront_word _ h).trans hafter
      · split at h
        · exact (takesFront_word _ h).trans hafter
        · split at h
          · exact (takesFront_word _ h).trans hafter
          · split at h
            · exact (takesFront_skipString h).trans hafter
            · split at h
              · exact (takesFront_skipNumber h).trans (hcs ▸ skipSpace_suffix cs)
              · split at h
                · obtain ⟨⟨xs, left⟩, hxs, h⟩ := bind_eq_ok_iff.1 h
                  cases h
                  exact (takesFront_elements ih fuel true hxs).trans hafter
                · split at h
                  · obtain ⟨⟨xs, left⟩, hxs, h⟩ := bind_eq_ok_iff.1 h
                    cases h
                    exact (takesFront_members takesFront_skipString ih fuel true hxs).trans hafter
                  · cases h

theorem takesFront_skip : TakesFront skip :=
  fun h => takesFront_skipNested _ h

/-! ## Values of a given type -/

theorem takesFront_numberValue : TakesFront numberValue := by
  intro cs x rest h
  unfold numberValue at h
  split at h
  · cases h
  · rename_i c after hcs
    split at h
    · exact (takesFront_number h).trans (hcs ▸ skipSpace_suffix cs)
    · cases h

theorem takesFront_integer (range : Int → Bool) : TakesFront (integer range) := by
  intro cs x rest h
  obtain ⟨found, hfound, h⟩ := bind_eq_ok_iff.1 h
  split at h
  · split at h
    · cases h
      exact takesFront_numberValue hfound
    · cases h
  · cases h

theorem takesFront_unsigned : TakesFront unsigned := by
  intro cs x rest h
  obtain ⟨⟨n, left⟩, hn, h⟩ := bind_eq_ok_iff.1 h
  cases h
  exact takesFront_integer _ hn

theorem takesFront_double : TakesFront double := by
  intro cs x rest h
  obtain ⟨found, hfound, h⟩ := bind_eq_ok_iff.1 h
  split at h
  · cases h
    exact takesFront_numberValue hfound
  · cases h
    exact takesFront_numberValue hfound
  · cases h

theorem takesFront_boolean : TakesFront boolean := by
  intro cs x rest h
  unfold boolean at h
  split at h
  · cases h
  · rename_i c after hcs
    have hafter := suffix_of_skipSpace hcs
    split at h
    · obtain ⟨⟨u, left⟩, hword, h⟩ := bind_eq_ok_iff.1 h
      cases h
      exact (takesFront_word _ hword).trans hafter
    · split at h
      · obtain ⟨⟨u, left⟩, hword, h⟩ := bind_eq_ok_iff.1 h
        cases h
        exact (takesFront_word _ hword).trans hafter
      · cases h

theorem takesFront_optional {read : Reader α} (hread : TakesFront read) :
    TakesFront (optional read) := by
  intro cs x rest h
  unfold optional at h
  split at h
  · rename_i after hcs
    obtain ⟨⟨u, left⟩, hword, h⟩ := bind_eq_ok_iff.1 h
    cases h
    exact (takesFront_word _ hword).trans (suffix_of_skipSpace hcs)
  · obtain ⟨⟨y, left⟩, hy, h⟩ := bind_eq_ok_iff.1 h
    cases h
    exact (hread hy).trans (skipSpace_suffix cs)

/-! ## Values that are read or passed over -/

theorem wholeDigits_of_ok {short short' : Fault} {found : List Char × List Char}
    (h : wholeDigits short cs = .ok found) : wholeDigits short' cs = .ok found := by
  cases cs with
  | nil => cases h
  | cons c cs => exact h

theorem someDigits_of_ok {short short' : Fault} {found : List Char × List Char}
    (h : someDigits short cs = .ok found) : someDigits short' cs = .ok found := by
  unfold someDigits at h ⊢
  dsimp only at h ⊢
  split at h
  · cases h
  · rename_i hds
    rw [if_neg hds]
    exact h

theorem exponent_of_ok {short short' : Fault} {plain : NumberParts}
    {scaled : List Char → List Char × List Char → NumberParts} {found : NumberParts × List Char}
    (h : (match cs with
      | [] => .ok (plain, cs)
      | c :: after =>
        if c = 'e' ∨ c = 'E' then do
          let digits ← someDigits short (Decimal.takeSign after).2
          .ok (scaled after digits, digits.2)
        else .ok (plain, cs)) = Except.ok found) :
    (match cs with
      | [] => .ok (plain, cs)
      | c :: after =>
        if c = 'e' ∨ c = 'E' then do
          let digits ← someDigits short' (Decimal.takeSign after).2
          .ok (scaled after digits, digits.2)
        else .ok (plain, cs)) = Except.ok found := by
  cases cs with
  | nil => exact h
  | cons c after =>
    dsimp only at h ⊢
    split at h
    · rename_i hmark
      obtain ⟨digits, hdigits, h⟩ := bind_eq_ok_iff.1 h
      rw [if_pos hmark]
      exact bind_eq_ok_iff.2 ⟨digits, someDigits_of_ok hdigits, h⟩
    · rename_i hmark
      rw [if_neg hmark]
      exact h

/-- The fault of a number that breaks off does not matter for one that is read. -/
theorem numberParts_of_ok {short short' : Fault} {negative : Bool} {found : NumberParts × List Char}
    (h : numberParts short negative cs = .ok found) :
    numberParts short' negative cs = .ok found := by
  obtain ⟨⟨whole, left⟩, hwhole, h⟩ := bind_eq_ok_iff.1 h
  refine bind_eq_ok_iff.2 ⟨_, wholeDigits_of_ok hwhole, ?_⟩
  dsimp only at h ⊢
  split at h
  · obtain ⟨⟨part, left'⟩, hpart, h⟩ := bind_eq_ok_iff.1 h
    exact bind_eq_ok_iff.2 ⟨_, someDigits_of_ok hpart, exponent_of_ok h⟩
  · obtain ⟨digits, hdigits, h⟩ := bind_eq_ok_iff.1 h
    cases hdigits
    exact bind_eq_ok_iff.2 ⟨_, rfl, exponent_of_ok h⟩

/-- Whether there is a sign is settled for all readers alike. -/
theorem exists_sign (cs : List Char) : ∃ negative after, ∀ {α : Type} (read : Bool → Reader α),
    (match cs with
      | '-' :: cs => read true cs
      | cs => read false cs) = read negative after := by
  by_cases h : ∃ after, cs = '-' :: after
  · obtain ⟨after, rfl⟩ := h
    exact ⟨true, after, fun read => rfl⟩
  · refine ⟨false, cs, fun read => ?_⟩
    split
    · exact absurd ⟨_, rfl⟩ h
    · rfl

theorem skipNumber_of_number {j : Json} (h : number cs = .ok (j, rest)) :
    skipNumber cs = .ok ((), rest) := by
  obtain ⟨negative, after, hsign⟩ := exists_sign cs
  have hnumber : (numberParts .endOfInput negative after >>= fun parts =>
      parts.1.value >>= fun v => .ok (v, parts.2)) = .ok (j, rest) :=
    (hsign fun negative cs => numberParts .endOfInput negative cs >>= fun parts =>
      parts.1.value >>= fun v => .ok (v, parts.2)).symm.trans h
  obtain ⟨⟨parts, left⟩, hparts, hvalue⟩ := bind_eq_ok_iff.1 hnumber
  obtain ⟨v, -, hv⟩ := bind_eq_ok_iff.1 hvalue
  cases hv
  refine (hsign fun negative cs => numberParts .malformed negative cs >>= fun parts =>
    .ok ((), parts.2)).trans ?_
  exact bind_eq_ok_iff.2 ⟨_, numberParts_of_ok hparts, rfl⟩

/-- The reader ends where the value ends for someone who passes over it. None of the values is
nested, so that any fuel is enough. -/
def EndsAsSkipped (read : Reader α) : Prop :=
  ∀ {cs : List Char} {x : α} {rest : List Char}, read cs = .ok (x, rest) →
    ∀ fuel, skipNested (fuel + 1) cs = .ok ((), rest)

theorem endsAsSkipped_numberValue : EndsAsSkipped numberValue := by
  intro cs x rest h fuel
  unfold numberValue at h
  split at h
  · cases h
  · rename_i c after hcs
    split at h
    · rename_i hc
      have hne := ne_of_startsNumber hc
      unfold skipNested
      rw [hcs]
      -- a literal and a string start with something else
      simp only [if_neg (hne 'n' (by decide) (by decide)), if_neg (hne 't' (by decide) (by decide)),
        if_neg (hne 'f' (by decide) (by decide)), if_neg (hne '"' (by decide) (by decide)), if_pos hc]
      exact skipNumber_of_number h
    · cases h

theorem endsAsSkipped_integer (range : Int → Bool) : EndsAsSkipped (integer range) := by
  intro cs x rest h
  obtain ⟨found, hfound, h⟩ := bind_eq_ok_iff.1 h
  split at h
  · split at h
    · cases h
      exact endsAsSkipped_numberValue hfound
    · cases h
  · cases h

theorem endsAsSkipped_unsigned : EndsAsSkipped unsigned := by
  intro cs x rest h
  obtain ⟨⟨n, left⟩, hn, h⟩ := bind_eq_ok_iff.1 h
  cases h
  exact endsAsSkipped_integer _ hn

theorem endsAsSkipped_double : EndsAsSkipped double := by
  intro cs x rest h
  obtain ⟨found, hfound, h⟩ := bind_eq_ok_iff.1 h
  split at h
  · cases h
    exact endsAsSkipped_numberValue hfound
  · cases h
    exact endsAsSkipped_numberValue hfound
  · cases h

theorem endsAsSkipped_boolean : EndsAsSkipped boolean := by
  intro cs x rest h fuel
  unfold boolean at h
  split at h
  · cases h
  · rename_i c after hcs
    unfold skipNested
    rw [hcs]
    split at h
    · rename_i hc
      obtain ⟨⟨⟨⟩, left⟩, hword, h⟩ := bind_eq_ok_iff.1 h
      cases h
      subst hc
      exact hword
    · split at h
      · rename_i hc
        obtain ⟨⟨⟨⟩, left⟩, hword, h⟩ := bind_eq_ok_iff.1 h
        cases h
        subst hc
        exact hword
      · cases h

theorem skipNested_skipSpace (fuel : ℕ) (cs : List Char) :
    skipNested fuel (skipSpace cs) = skipNested fuel cs := by
  have hskip : skipSpace (skipSpace cs) = skipSpace cs :=
    List.dropWhile_idempotent isSpace cs
  cases fuel with
  | zero => rfl
  | succ fuel =>
    unfold skipNested
    rw [hskip]

theorem endsAsSkipped_optional {read : Reader α} (hread : EndsAsSkipped read) :
    EndsAsSkipped (optional read) := by
  intro cs x rest h fuel
  unfold optional at h
  split at h
  · rename_i after hcs
    obtain ⟨⟨⟨⟩, left⟩, hword, h⟩ := bind_eq_ok_iff.1 h
    cases h
    unfold skipNested
    rw [hcs]
    exact hword
  · obtain ⟨⟨y, left⟩, hy, h⟩ := bind_eq_ok_iff.1 h
    cases h
    rw [← skipNested_skipSpace]
    exact hread hy fuel

end TradeWatch.Json
