/-
Which settings a run gets. A setting has the value that is given for it directly, or else the one that
the file names, or else its default, and the file has to be acceptable without anything given beside
it. What is resolved makes a detector.
-/
import TradeWatch.Proofs.Config.Reading
import TradeWatch.Run

namespace TradeWatch.Config

variable {c d : Config} {e : Fault} {file : Option (Except Fault String)} {o : Overrides}
  {named : List Assignment}

/-! ## The file -/

/-- The values that a file gives. Without a file there are none. -/
def Gives (file : Option (Except Fault String)) (named : List Assignment) : Prop :=
  match file with
  | none => named = []
  | some text => ∃ s, text = .ok s ∧ Names s named

/-- The defaults under the values of a file. -/
def ofNamed (named : List Assignment) : Config :=
  ({} : Config).setAll named

/-- What is wrong with the file, whatever is given beside it. -/
def FileFault (file : Option (Except Fault String)) (e : Fault) : Prop :=
  file = some (.error e) ∨
    (∃ text fault, file = some (.ok text) ∧ parse text = .error fault ∧ e = .json fault) ∨
    ∃ named fault, Gives file named ∧ (ofNamed named).validate = .error fault ∧ e = .config fault

theorem Gives.nodup (h : Gives file named) : (named.map (·.setting)).Nodup := by
  cases file with
  | none =>
    cases h
    exact List.nodup_nil
  | some text =>
    obtain ⟨s, -, hs⟩ := h
    exact hs.nodup

/-! ## Merging -/

/-- Each setting has the value given directly, or else that of the file, or else the default; the
results between the rules are kept if the file or the switch says so. -/
structure Merged (o : Overrides) (named : List Assignment) (c : Config) : Prop where
  value : ∀ s, s ≠ .saveIntermediates →
    c.get s = (o.given s).getD ((valueOf? s named).getD (({} : Config).get s))
  saveIntermediates : c.saveIntermediates = true ↔
    valueOf? .saveIntermediates named = some true ∨ o.saveIntermediates = true

theorem merged_iff (h : (named.map (·.setting)).Nodup) :
    Merged o named c ↔ c = o.apply (ofNamed named) := by
  have hget : ∀ s, (o.apply (ofNamed named)).get s =
      (o.given s).getD ((valueOf? s named).getD (({} : Config).get s)) := fun s => by
    rw [Overrides.get_apply, ofNamed, get_setAll h]
  have hsave : (o.apply (ofNamed named)).saveIntermediates = true ↔
      valueOf? .saveIntermediates named = some true ∨ o.saveIntermediates = true := by
    have hor : ∀ (v : Option Bool) (on : Bool),
        (v.getD false || on) = true ↔ v = some true ∨ on = true := fun v on => by
      cases v with
      | none => simp
      | some saved => simp
    have hfile : (ofNamed named).saveIntermediates =
        (valueOf? .saveIntermediates named).getD false := get_setAll h _ .saveIntermediates
    change ((ofNamed named).saveIntermediates || o.saveIntermediates) = true ↔ _
    rw [hfile]
    exact hor _ _
  constructor
  · intro hc
    refine ext_get fun s => ?_
    by_cases hs : s = .saveIntermediates
    · subst hs
      exact Bool.eq_iff_iff.2 (hc.saveIntermediates.trans hsave.symm)
    · exact (hc.value s hs).trans (hget s).symm
  · rintro rfl
    exact ⟨fun s _ => hget s, hsave⟩

/-! ## Accepting -/

theorem accept_eq_ok_iff : c.accept = .ok d ↔ c.validate = .ok () ∧ d = c := by
  unfold accept
  cases c.validate with
  | error fault => simp
  | ok u => simp [eq_comm]

theorem accept_eq_error_iff :
    c.accept = .error e ↔ ∃ fault, c.validate = .error fault ∧ e = .config fault := by
  unfold accept
  cases c.validate with
  | error fault => simp [eq_comm]
  | ok u => simp

theorem validate_default : ({} : Config).validate = .ok () := by
  decide +kernel

/-! ## Resolving -/

/-- A file that can be read is checked by itself, and then below what is given directly. -/
theorem Gives.resolve_eq (h : Gives file named) :
    resolve file o = (ofNamed named).accept >>= fun base => (o.apply base).accept := by
  cases file with
  | none =>
    cases h
    have hdefault : ({} : Config).accept = .ok {} := accept_eq_ok_iff.2 ⟨validate_default, rfl⟩
    rw [show ofNamed [] = {} from rfl, hdefault]
    rfl
  | some text =>
    obtain ⟨s, rfl, hs⟩ := h
    have hparse : parse s = .ok (ofNamed named) := parse_eq_ok_iff.2 ⟨named, hs, rfl⟩
    change (ofText s >>= fun base => (o.apply base).accept) = _
    unfold ofText
    rw [hparse]
    rfl

theorem file_cases (file : Option (Except Fault String)) :
    (∃ e, file = some (.error e)) ∨
      (∃ text fault, file = some (.ok text) ∧ parse text = .error fault) ∨
      ∃ named, Gives file named := by
  match file with
  | none => exact .inr (.inr ⟨[], rfl⟩)
  | some (.error e) => exact .inl ⟨e, rfl⟩
  | some (.ok text) =>
    cases hparse : parse text with
    | error fault => exact .inr (.inl ⟨text, fault, rfl, hparse⟩)
    | ok c =>
      obtain ⟨named, hnamed, -⟩ := parse_eq_ok_iff.1 hparse
      exact .inr (.inr ⟨named, text, rfl, hnamed⟩)

theorem Gives.resolve_eq_ok_iff (h : Gives file named) :
    resolve file o = .ok c ↔
      (ofNamed named).validate = .ok () ∧ Merged o named c ∧ c.validate = .ok () := by
  rw [h.resolve_eq, bind_eq_ok_iff, merged_iff h.nodup]
  simp only [accept_eq_ok_iff]
  constructor
  · rintro ⟨_, ⟨hbase, rfl⟩, hmerged, rfl⟩
    exact ⟨hbase, rfl, hmerged⟩
  · rintro ⟨hbase, rfl, hmerged⟩
    exact ⟨_, ⟨hbase, rfl⟩, hmerged, rfl⟩

theorem Gives.resolve_eq_error_iff (h : Gives file named) :
    resolve file o = .error e ↔
      (∃ fault, (ofNamed named).validate = .error fault ∧ e = .config fault) ∨
        (ofNamed named).validate = .ok () ∧
          ∃ c fault, Merged o named c ∧ c.validate = .error fault ∧ e = .config fault := by
  rw [h.resolve_eq, ← accept_eq_error_iff]
  simp only [merged_iff h.nodup, exists_and_left, exists_eq_left, ← accept_eq_error_iff]
  cases hvalid : (ofNamed named).validate with
  | error fault => simp [accept, hvalid, Bind.bind, Except.bind]
  | ok u => simp [accept, hvalid, Bind.bind, Except.bind]

/-- What a text gives decides the configuration of the file, however it is listed. -/
theorem Gives.ofNamed_eq {named' : List Assignment} (h : Gives file named) (h' : Gives file named') :
    ofNamed named' = ofNamed named := by
  cases file with
  | none => rw [show named' = [] from h', show named = [] from h]
  | some text =>
    obtain ⟨s, rfl, hs⟩ := h
    obtain ⟨s', hs', hnamed'⟩ := h'
    cases hs'
    exact Except.ok.inj ((parse_eq_ok_iff.2 ⟨named', hnamed', rfl⟩).symm.trans
      (parse_eq_ok_iff.2 ⟨named, hs, rfl⟩))

/-- Resolving fails on a file with a fault of its own, or else on what its values and those given
directly make together. -/
theorem resolve_eq_error_iff :
    resolve file o = .error e ↔
      FileFault file e ∨
        ∃ named c fault, Gives file named ∧ (ofNamed named).validate = .ok () ∧ Merged o named c ∧
          c.validate = .error fault ∧ e = .config fault := by
  rcases file_cases file with ⟨e', rfl⟩ | ⟨text, fault, rfl, hparse⟩ | ⟨named, hnamed⟩
  · constructor
    · intro h
      cases h
      exact .inl (.inl rfl)
    · rintro ((h | ⟨_, _, h, -⟩ | ⟨_, _, ⟨_, h, -⟩, -⟩) | ⟨_, _, _, ⟨_, h, -⟩, -⟩) <;> cases h
      rfl
  · have hresolve : resolve (some (.ok text)) o = .error (.json fault) := by
      change (ofText text >>= fun base => (o.apply base).accept) = _
      unfold ofText
      rw [hparse]
      rfl
    have hgives : ∀ named, ¬ Gives (some (.ok text)) named := by
      rintro named ⟨s, hs, hnamed⟩
      cases hs
      rw [parse_eq_ok_iff.2 ⟨named, hnamed, rfl⟩] at hparse
      cases hparse
    rw [hresolve]
    constructor
    · intro h
      cases h
      exact .inl (.inr (.inl ⟨text, fault, rfl, hparse, rfl⟩))
    · rintro ((h | ⟨text', fault', htext, hparse', rfl⟩ | ⟨named, _, h, -⟩) | ⟨named, _, _, h, -⟩)
      · cases h
      · cases htext
        rw [hparse] at hparse'
        cases hparse'
        rfl
      · exact absurd h (hgives named)
      · exact absurd h (hgives named)
  · rw [hnamed.resolve_eq_error_iff]
    constructor
    · rintro (⟨fault, hfault, he⟩ | ⟨hbase, c, fault, hmerged, hfault, he⟩)
      · exact .inl (.inr (.inr ⟨named, fault, hnamed, hfault, he⟩))
      · exact .inr ⟨named, c, fault, hnamed, hbase, hmerged, hfault, he⟩
    · rintro ((rfl | ⟨text, fault, rfl, hparse, -⟩ | ⟨named', fault, h', hfault, he⟩) |
        ⟨named', c, fault, h', hbase, hmerged, hfault, he⟩)
      · obtain ⟨s, hs, -⟩ := hnamed
        cases hs
      · obtain ⟨s, hs, hnames⟩ := hnamed
        cases hs
        rw [parse_eq_ok_iff.2 ⟨named, hnames, rfl⟩] at hparse
        cases hparse
      · rw [hnamed.ofNamed_eq h'] at hfault
        exact .inl ⟨fault, hfault, he⟩
      · rw [merged_iff h'.nodup, hnamed.ofNamed_eq h', ← merged_iff hnamed.nodup] at hmerged
        rw [hnamed.ofNamed_eq h'] at hbase
        exact .inr ⟨hbase, c, fault, hmerged, hfault, he⟩

theorem resolve_eq_ok_iff :
    resolve file o = .ok c ↔
      ∃ named, Gives file named ∧ (ofNamed named).validate = .ok () ∧ Merged o named c ∧
        c.validate = .ok () := by
  constructor
  · intro h
    rcases file_cases file with ⟨e', rfl⟩ | ⟨text, fault, rfl, hparse⟩ | ⟨named, hnamed⟩
    · cases h
    · rw [resolve_eq_error_iff.2 (.inl (.inr (.inl ⟨text, fault, rfl, hparse, rfl⟩)))] at h
      cases h
    · exact ⟨named, hnamed, hnamed.resolve_eq_ok_iff.1 h⟩
  · rintro ⟨named, hnamed, h⟩
    exact hnamed.resolve_eq_ok_iff.2 h

/-- Resolving succeeds just when the file, if there is one, is readable and gives values that are
acceptable by themselves, and these under the values given directly are acceptable too; every setting
then comes from the first of its places, and the results between the rules are kept if any place says
so. Otherwise the fault is that of the file by itself, whatever is given beside it, before that of the
merged values. A resolved configuration always makes a detector. -/
theorem resolve_precedence (file : Option (Except Fault String)) (o : Overrides) :
    (∀ c, resolve file o = .ok c ↔
        ∃ named, Gives file named ∧ (ofNamed named).validate = .ok () ∧ Merged o named c ∧
          c.validate = .ok ()) ∧
      (∀ e, resolve file o = .error e ↔
        FileFault file e ∨
          ∃ named c fault, Gives file named ∧ (ofNamed named).validate = .ok () ∧ Merged o named c ∧
            c.validate = .error fault ∧ e = .config fault) ∧
      ∀ c, resolve file o = .ok c → ∃ d, Detector.ofConfig c = .ok d ∧ d.config = c := by
  refine ⟨fun c => resolve_eq_ok_iff, fun e => resolve_eq_error_iff, fun c h => ?_⟩
  obtain ⟨named, -, -, -, hvalid⟩ := resolve_eq_ok_iff.1 h
  refine ⟨⟨c, hvalid⟩, ?_, rfl⟩
  unfold Detector.ofConfig
  split
  · rfl
  · rename_i fault hfault
    rw [hvalid] at hfault
    cases hfault

/-- A file that takes fewer occurrences for a high severity than the default takes for a medium
one. -/
def invertedText : String :=
  "\x7b\"note\": [1], \"severity_high_occurrences\": 2\x7d"

/-- The inverted file is refused also where the values given directly would put it right; without a
file these values make a detector. -/
theorem resolve_precedence_invertedFile :
    resolve (some (.ok invertedText)) { severityMediumOccurrences := some 1 } =
        .error (.config .mediumAboveHigh) ∧
      ∃ d, Detector.ofConfig { severityMediumOccurrences := 1 } = .ok d ∧
        d.config = { severityMediumOccurrences := 1 } := by
  have hinverted : parse invertedText = .ok { severityHighOccurrences := 2 } := rfl
  obtain ⟨named, hnamed, hbase⟩ := parse_eq_ok_iff.1 hinverted
  have hfault : (ofNamed named).validate = .error .mediumAboveHigh := by
    rw [ofNamed, ← hbase]
    decide +kernel
  have hplain : resolve none { severityMediumOccurrences := some 1 } =
      .ok { severityMediumOccurrences := 1 } := by
    have hgives : Gives none [] := rfl
    have hvalid : ({ severityMediumOccurrences := 1 } : Config).validate = .ok () := by
      decide +kernel
    rw [hgives.resolve_eq_ok_iff, merged_iff hgives.nodup]
    exact ⟨validate_default, rfl, hvalid⟩
  constructor
  · refine ((resolve_precedence _ _).2.1 _).2 (.inl (.inr (.inr ⟨named, _, ?_, hfault, rfl⟩)))
    exact ⟨invertedText, rfl, hnamed⟩
  · exact (resolve_precedence none _).2.2 _ hplain

end TradeWatch.Config
