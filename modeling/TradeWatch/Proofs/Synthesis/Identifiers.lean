/-
The ids of made-up events. An id ends in digits behind a last dash, so both the number and the name
of the instrument can be read off it, whatever is in the name; and two events of one making differ
in one of them.
-/
import TradeWatch.Proofs.Synthesis.Weeks
import TradeWatch.Proofs.Text.Digits

namespace TradeWatch.Synthesis

open TradeWatch.Random (Generator)

/-! ## Reading an id -/

theorem append_cons_inj_of_not_mem {α : Type} {a : α} {xs xs' ys ys' : List α} (h : a ∉ ys)
    (h' : a ∉ ys') (heq : xs ++ a :: ys = xs' ++ a :: ys') : xs = xs' ∧ ys = ys' := by
  -- the longer of both heads would have the separator in the tail of the other
  rcases List.append_eq_append_iff.1 heq with ⟨rest, rfl, hrest⟩ | ⟨rest, rfl, hrest⟩
  · cases rest with
    | nil => simpa using hrest
    | cons b rest =>
      obtain ⟨-, rfl⟩ := List.cons.inj hrest
      simp at h
  · cases rest with
    | nil => simpa [eq_comm] using hrest
    | cons b rest =>
      obtain ⟨-, rfl⟩ := List.cons.inj hrest
      simp at h'

theorem dash_not_mem_zeroPadded (width n : ℕ) : '-' ∉ (Text.zeroPadded width n).toList := by
  intro h
  have hdigit := List.all_eq_true.1 (Text.all_isDigit_zeroPadded width n) _ h
  exact absurd hdigit (by decide)

/-- An id has the name and the number in it. -/
theorem id_inj {instrument instrument' : String} {number number' : ℕ}
    (h : "SYN-" ++ instrument ++ "-" ++ Text.zeroPadded 4 number =
      "SYN-" ++ instrument' ++ "-" ++ Text.zeroPadded 4 number') :
    instrument = instrument' ∧ number = number' := by
  have hchars := congrArg String.toList h
  have hdash : "-".toList = ['-'] := rfl
  simp only [String.toList_append, List.append_assoc, hdash, List.singleton_append] at hchars
  obtain ⟨hname, hdigits⟩ := append_cons_inj_of_not_mem (dash_not_mem_zeroPadded 4 number)
    (dash_not_mem_zeroPadded 4 number') (List.append_cancel_left hchars)
  have hvalue := congrArg Text.valueOf hdigits
  rw [Text.valueOf_zeroPadded, Text.valueOf_zeroPadded] at hvalue
  exact ⟨String.toList_inj.1 hname, hvalue⟩

theorem Announces.id_inj {instrument instrument' : String} {number number' : ℕ} {day day' : ℤ}
    {e e' : CorporateEvent} (h : Announces instrument number day e)
    (h' : Announces instrument' number' day' e') (hid : e.id = e'.id) :
    instrument = instrument' ∧ number = number' := by
  rw [h.id, h'.id] at hid
  exact Synthesis.id_inj hid

/-! ## Different events -/

theorem Scheduled.nodup_ids {instrument : String} {first last : ℤ} {events : List CorporateEvent}
    (h : Scheduled instrument first last events) : (events.map (·.id)).Nodup := by
  rw [List.Nodup, List.pairwise_map, List.pairwise_iff_getElem]
  intro i j hi hj hlt hid
  have hnumber := ((h.each i hi).id_inj (h.each j hj) hid).2
  omega

/-- The events of different instruments are different, and so are those of each. -/
theorem nodup_ids_of_forall₂ {trades : List Trade} {instruments : List String}
    {made : List (List CorporateEvent)} (hnodup : instruments.Nodup)
    (h : List.Forall₂ (fun instrument events => ∃ first last,
      Span trades instrument first last ∧ Scheduled instrument first last events)
      instruments made) : (made.flatten.map (·.id)).Nodup := by
  induction h with
  | nil => exact .nil
  | @cons instrument events instruments made hfirst hrest ih =>
    obtain ⟨first, last, -, hscheduled⟩ := hfirst
    obtain ⟨hother, hrestNodup⟩ := List.nodup_cons.1 hnodup
    rw [List.flatten_cons, List.map_append, List.nodup_append']
    refine ⟨hscheduled.nodup_ids, ih hrestNodup, ?_⟩
    intro id hid hid'
    obtain ⟨e, he, rfl⟩ := List.mem_map.1 hid
    obtain ⟨e', he', hsame⟩ := List.mem_map.1 hid'
    obtain ⟨events', hevents', he'⟩ := List.mem_flatten.1 he'
    obtain ⟨instrument', hmem, first', last', -, hscheduled'⟩ :=
      exists_of_mem_right hrest hevents'
    obtain ⟨number, day, hannounces, -⟩ := hscheduled.exists_announces he
    obtain ⟨number', day', hannounces', -⟩ := hscheduled'.exists_announces he'
    obtain ⟨rfl, -⟩ := hannounces'.id_inj hannounces hsame
    exact hother hmem

theorem nodup_ids {trades : List Trade} {g g' : Generator} {events : List CorporateEvent}
    (h : events? trades g = some (events, g')) : (events.map (·.id)).Nodup := by
  obtain ⟨made, rfl, hmade⟩ := exists_scheduled h
  exact nodup_ids_of_forall₂ (nodup_ascending _ _) hmade

end TradeWatch.Synthesis
