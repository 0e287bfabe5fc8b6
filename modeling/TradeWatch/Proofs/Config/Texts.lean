/-
Settings files as they are written. An object may name any of the settings, in any order, among
members with other names and with blanks anywhere; a list gives the values of the first settings.
What is read is the values that are written, over the defaults, and depends on nothing else. An
object that names a setting twice is refused, whatever its values are.
-/
import Mathlib.Data.List.Duplicate
import TradeWatch.Proofs.Config.Resolution
import TradeWatch.Proofs.Json.Grammar

namespace TradeWatch

open Decimal (Scientific)
open Json (Blank EndsNumber Encloses EndsAsSkipped IsValue Listed Member Numeral Spells Starts sign)

/-! ## Values of settings -/

/-- The text of an integer of 64 bits. -/
def WritesInt (n : ℤ) (cs : List Char) : Prop :=
  isSigned64 n = true ∧ cs = (Text.intDigits n).toList

/-- The text of a count of 64 bits. -/
def WritesNat (n : ℕ) (cs : List Char) : Prop :=
  n < words64 ∧ cs = Text.digitsOf n

/-- A text of a finite double: any number that it is the nearest double to. -/
def WritesDouble (x : Float) (cs : List Char) : Prop :=
  x.isFinite = true ∧ ∃ (negative : Bool) (ds : List Char) (d : Scientific),
    Numeral ds d ∧ Decimal.ofScientific negative d = x ∧ cs = sign negative ++ ds

def WritesBool (b : Bool) (cs : List Char) : Prop :=
  cs = if b then ['t', 'r', 'u', 'e'] else ['f', 'a', 'l', 's', 'e']

def WritesOption : Option ℕ → List Char → Prop
  | none, cs => cs = ['n', 'u', 'l', 'l']
  | some n, cs => WritesNat n cs

/-- The text is one of the value of the setting. -/
def Setting.Writes : (s : Setting) → s.Value → List Char → Prop
  | .preAnnouncementWindowDays => WritesInt
  | .abnormalVolumeMultiplier => WritesDouble
  | .abnormalReturnThreshold => WritesDouble
  | .profitThreshold => WritesDouble
  | .networkWindowDays => WritesInt
  | .leakageWindowHours => WritesInt
  | .leakageMinAccounts => WritesNat
  | .severityHighOccurrences => WritesNat
  | .severityMediumOccurrences => WritesNat
  | .severityLowOccurrences => WritesNat
  | .saveIntermediates => WritesBool
  | .minSuspiciousEvents => WritesNat
  | .syntheticEventSeed => WritesOption

/-- The value is one that a file can hold: an integer of 64 bits, or a finite double. -/
def Setting.InRange : (s : Setting) → s.Value → Prop
  | .preAnnouncementWindowDays => fun n => isSigned64 n = true
  | .abnormalVolumeMultiplier => fun x : Float => x.isFinite = true
  | .abnormalReturnThreshold => fun x : Float => x.isFinite = true
  | .profitThreshold => fun x : Float => x.isFinite = true
  | .networkWindowDays => fun n => isSigned64 n = true
  | .leakageWindowHours => fun n => isSigned64 n = true
  | .leakageMinAccounts => fun n : ℕ => n < words64
  | .severityHighOccurrences => fun n : ℕ => n < words64
  | .severityMediumOccurrences => fun n : ℕ => n < words64
  | .severityLowOccurrences => fun n : ℕ => n < words64
  | .saveIntermediates => fun _ => True
  | .minSuspiciousEvents => fun n : ℕ => n < words64
  | .syntheticEventSeed => fun seed : Option ℕ => ∀ n ∈ seed, n < words64

section Values

variable {bs cs rest : List Char}

/-- The text is read as the value, behind blanks and whatever follows. -/
structure ReadAs {α : Type} (read : Json.Reader α) (v : α) (cs : List Char) : Prop where
  starts : Starts cs
  reads : ∀ {bs rest : List Char}, Blank bs → EndsNumber rest →
    read (bs ++ (cs ++ rest)) = .ok (v, rest)

theorem starts_digitsOf (n : ℕ) :
    ∃ c ds, Text.digitsOf n = c :: ds ∧ (c = '-' ∨ c.isDigit = true) := by
  obtain ⟨c, ds, hds, hc⟩ := (Json.Whole.ofNat n).exists_eq_cons
  exact ⟨c, ds, hds, .inr hc⟩

theorem WritesInt.readAs {n : ℤ} (h : WritesInt n cs) : ReadAs Json.signed n cs := by
  obtain ⟨hn, rfl⟩ := h
  exact ⟨Json.starts_of_number (Json.starts_int n), Json.signed_append hn⟩

theorem WritesNat.readAs {n : ℕ} (h : WritesNat n cs) : ReadAs Json.unsigned n cs := by
  obtain ⟨hn, rfl⟩ := h
  exact ⟨Json.starts_of_number (starts_digitsOf n), Json.unsigned_append hn⟩

theorem WritesDouble.readAs {x : Float} (h : WritesDouble x cs) : ReadAs Json.double x cs := by
  obtain ⟨hfinite, negative, ds, d, hd, rfl, rfl⟩ := h
  refine ⟨Json.starts_of_number (hd.starts negative), fun hb hr => ?_⟩
  exact hd.double_append (Decimal.isInf_of_isFinite hfinite) hb hr

theorem WritesBool.readAs {b : Bool} (h : WritesBool b cs) : ReadAs Json.boolean b cs := by
  subst h
  refine ⟨(IsValue.bool b).starts, fun hb hr => ?_⟩
  unfold Json.boolean
  rw [(IsValue.bool b).starts.blank_append hb]
  cases b <;> rfl

theorem WritesOption.readAs {seed : Option ℕ} (h : WritesOption seed cs) :
    ReadAs (Json.optional Json.unsigned) seed cs := by
  cases seed with
  | none =>
    obtain rfl : cs = _ := h
    refine ⟨IsValue.null.starts, fun hb hr => ?_⟩
    unfold Json.optional
    rw [IsValue.null.starts.blank_append hb]
    rfl
  | some n =>
    have hread := WritesNat.readAs h
    obtain ⟨-, rfl⟩ := h
    refine ⟨hread.starts, fun hb hr => Json.optional_append (starts_digitsOf n) hb ?_⟩
    exact hread.reads Json.blank_nil hr

theorem Setting.Writes.readAs {s : Setting} {v : s.Value} (h : s.Writes v cs) :
    ReadAs s.reader v cs := by
  cases s with
  | preAnnouncementWindowDays | networkWindowDays | leakageWindowHours => exact WritesInt.readAs h
  | abnormalVolumeMultiplier | abnormalReturnThreshold | profitThreshold =>
    exact WritesDouble.readAs h
  | saveIntermediates => exact WritesBool.readAs h
  | syntheticEventSeed => exact WritesOption.readAs h
  | leakageMinAccounts | severityHighOccurrences | severityMediumOccurrences
  | severityLowOccurrences | minSuspiciousEvents => exact WritesNat.readAs h

/-- A finite double is written with the digits of its shortest decimal and an exponent. -/
theorem exists_writesDouble {x : Float} (h : x.isFinite = true) : ∃ cs, WritesDouble x cs := by
  let d := Decimal.shortest (Decimal.magnitudeBits x)
  have hpower : Json.Power ('e' :: (if decide (d.exponent < 0) then '-' else '+') ::
      Text.digitsOf d.exponent.natAbs) d.exponent := by
    have hsigned := Json.Power.signed (decide (d.exponent < 0)) (.inl rfl)
      (Text.digitsOf_ne_nil d.exponent.natAbs) (Text.all_isDigit_digitsOf _)
    rw [Text.valueOf_digitsOf] at hsigned
    convert hsigned using 1
    split <;> rename_i hneg <;> simp at hneg <;> omega
  have hnumeral := Json.Numeral.intro (Json.Whole.ofNat d.digits) .none hpower
  rw [List.append_nil, Text.valueOf_digitsOf] at hnumeral
  refine ⟨_, h, Decimal.isNegative x, _, _, hnumeral, ?_, rfl⟩
  have hd : (⟨d.digits, d.exponent - (([] : List Char).length : ℤ)⟩ : Scientific) = d := by simp
  unfold Decimal.ofScientific
  rw [hd, Decimal.nearestBits_shortest ((Decimal.isFinite_iff x).1 h),
    Decimal.ofMagnitudeBits_magnitudeBits]

/-- Every value in the range of its setting can be written. -/
theorem Setting.exists_writes {s : Setting} {v : s.Value} (h : s.InRange v) :
    ∃ cs, s.Writes v cs := by
  cases s with
  | preAnnouncementWindowDays | networkWindowDays | leakageWindowHours => exact ⟨_, h, rfl⟩
  | abnormalVolumeMultiplier | abnormalReturnThreshold | profitThreshold =>
    exact exists_writesDouble h
  | saveIntermediates => exact ⟨_, rfl⟩
  | syntheticEventSeed =>
    cases v with
    | none => exact ⟨_, rfl⟩
    | some n => exact ⟨_, h n rfl, rfl⟩
  | leakageMinAccounts | severityHighOccurrences | severityMediumOccurrences
  | severityLowOccurrences | minSuspiciousEvents => exact ⟨_, h, rfl⟩

theorem endsAsSkipped_reader (s : Setting) : EndsAsSkipped s.reader := by
  cases s with
  | preAnnouncementWindowDays | networkWindowDays | leakageWindowHours =>
    exact Json.endsAsSkipped_integer _
  | abnormalVolumeMultiplier | abnormalReturnThreshold | profitThreshold =>
    exact Json.endsAsSkipped_double
  | saveIntermediates => exact Json.endsAsSkipped_boolean
  | syntheticEventSeed => exact Json.endsAsSkipped_optional Json.endsAsSkipped_unsigned
  | leakageMinAccounts | severityHighOccurrences | severityMediumOccurrences
  | severityLowOccurrences | minSuspiciousEvents => exact Json.endsAsSkipped_unsigned

end Values

/-! ## Names of settings -/

namespace Setting

theorem ofName?_name (s : Setting) : ofName? s.name = some s := by
  cases s <;> decide +kernel

theorem ofName?_ofList_name (s : Setting) : ofName? (String.ofList s.name.toList) = some s := by
  rw [String.ofList_toList, ofName?_name]

theorem ofName?_of_ne {name : List Char} (h : ∀ s : Setting, s.name.toList ≠ name) :
    ofName? (String.ofList name) = none := by
  refine List.find?_eq_none.2 fun s _ hs => h s ?_
  rw [eq_of_beq hs, String.toList_ofList]

end Setting

namespace Config

/-! ## Objects -/

/-- The value of a setting as an assignment. -/
def assignment (v : Config) (s : Setting) : Assignment :=
  ⟨s, v.get s⟩

/-- Of these members some name a setting and give it the value that it has in `v`; the others have
other names and any value at all. The settings are listed in the order of the members. -/
inductive NamesIn (v : Config) : List Member → List Setting → Prop
  | nil : NamesIn v [] []
  | other {m : Member} {ms : List Member} {named : List Setting} {name : List Char}
    (hkey : Spells m.key name) (hname : ∀ s : Setting, s.name.toList ≠ name)
    (hvalue : IsValue m.value) (h : NamesIn v ms named) : NamesIn v (m :: ms) named
  | setting {m : Member} {ms : List Member} {named : List Setting} {s : Setting}
    (hkey : Spells m.key s.name.toList) (hvalue : s.Writes (v.get s) m.value)
    (h : NamesIn v ms named) : NamesIn v (m :: ms) (s :: named)

section Objects

variable {v : Config} {ms : List Member} {named : List Setting} {first : Bool}
  {cs rest left : List Char} {as : List Assignment}

/-- The members that are written are there. -/
theorem NamesIn.members (h : NamesIn v ms named)
    (hcs : Listed '\x7d' first (ms.map Member.text) cs) (rest : List Char) :
    Members first (cs ++ rest) (named.map v.assignment) rest := by
  induction h generalizing first cs with
  | nil =>
    cases hcs with
    | close hb =>
      refine .close ?_
      rw [List.append_assoc, hb.nextMember_append]
      rfl
  | @other m ms named name hkey hname hvalue _ ih =>
    cases hcs with
    | @item _ gap _ cs _ hgap hrest =>
      have hends := hrest.endsNumber_append (.inr rfl) rest
      simp only [Member.text, List.append_assoc, List.cons_append]
      exact .other (hgap.nextMember_append _) (hkey.string_append _)
        (Setting.ofName?_of_ne hname) (Json.colon_append m _)
        (hvalue.skip_append m.blank_behind hends) (ih hrest)
  | @setting m ms named s hkey hvalue _ ih =>
    cases hcs with
    | @item _ gap _ cs _ hgap hrest =>
      have hends := hrest.endsNumber_append (.inr rfl) rest
      simp only [Member.text, List.append_assoc, List.cons_append]
      exact .setting (hgap.nextMember_append _) (hkey.string_append _)
        (Setting.ofName?_ofList_name s) (Json.colon_append m _)
        (hvalue.readAs.reads m.blank_behind hends) (ih hrest)

/-- The names of members with any values. -/
def HaveNames (ms : List Member) (names : List (List Char)) : Prop :=
  List.Forall₂ (fun m name => Spells m.key name ∧ IsValue m.value) ms names

/-- What is found in an object is found for the settings that its members name, in their order. -/
theorem Members.settings_eq {names : List (List Char)} (h : HaveNames ms names)
    (hcs : Listed '\x7d' first (ms.map Member.text) cs)
    (hmembers : Members first (cs ++ rest) as left) :
    as.map (·.setting) = names.filterMap fun name => Setting.ofName? (String.ofList name) := by
  induction h generalizing first cs as with
  | nil =>
    cases hcs with
    | close hb =>
      rw [List.append_assoc] at hmembers
      cases hmembers with
      | close hclose => rfl
      | other hmore | setting hmore =>
        rw [hb.nextMember_append] at hmore
        cases hmore
  | @cons m name ms names hm _ ih =>
    cases hcs with
    | @item _ gap _ cs _ hgap hrest =>
      have hends := hrest.endsNumber_append (.inr rfl) rest
      have hkey := hm.1.string_append
        (m.beforeColon ++ ':' :: (m.behindColon ++ (m.value ++ (cs ++ rest))))
      simp only [Member.text, List.append_assoc, List.cons_append] at hmembers
      cases hmembers with
      | close hclose =>
        rw [hgap.nextMember_append] at hclose
        cases hclose
      | other hmore hkey' hname hcolon hskip hrest' =>
        rw [hgap.nextMember_append] at hmore
        cases hmore
        rw [hkey] at hkey'
        cases hkey'
        rw [Json.colon_append] at hcolon
        cases hcolon
        rw [hm.2.skip_append m.blank_behind hends] at hskip
        cases hskip
        rw [ih hrest hrest', List.filterMap_cons, hname]
      | setting hmore hkey' hname hcolon hvalue hrest' =>
        rw [hgap.nextMember_append] at hmore
        cases hmore
        rw [hkey] at hkey'
        cases hkey'
        rw [Json.colon_append] at hcolon
        cases hcolon
        obtain rfl := hm.2.rest_of_read (endsAsSkipped_reader _) m.blank_behind hends hvalue
        rw [List.map_cons, ih hrest hrest', List.filterMap_cons, hname]

end Objects

/-! ## Lists -/

/-- The values of the first settings of a list, up to the closing bracket. -/
theorem elements_of_listed {v : Config} {settings : List Setting} {k : ℕ} {items : List (List Char)}
    {first : Bool} {cs : List Char}
    (h : List.Forall₂ (fun s x => s.Writes (v.get s) x) (settings.take k) items)
    (hcs : Listed ']' first items cs) (rest : List Char) :
    Elements settings first (cs ++ rest) ((settings.take k).map v.assignment) rest := by
  induction settings generalizing k items first cs with
  | nil =>
    simp only [List.take_nil, List.map_nil] at h ⊢
    cases h
    cases hcs with
    | close hb =>
      refine .all ?_
      rw [List.append_assoc, hb.skipSpace_append]
      rfl
  | cons s settings ih =>
    cases k with
    | zero =>
      cases h
      cases hcs with
      | close hb =>
        refine .close ?_
        rw [List.append_assoc, hb.nextElement_append]
        rfl
    | succ k =>
      rw [List.take_succ_cons] at h
      cases h with
      | @cons _ x _ items hx h =>
        cases hcs with
        | @item _ gap _ cs _ hgap hrest =>
          have hread := hx.readAs
          rw [List.append_assoc, List.append_assoc]
          exact .setting (hgap.nextElement_append hread.starts _)
            (hread.reads Json.blank_nil (hrest.endsNumber_append (.inl rfl) rest)) (ih h hrest)

/-! ## What a text gives -/

section Given

variable {v : Config} {ms : List Member} {named named' : List Setting} {text : String} {k : ℕ}
  {items : List (List Char)}

theorem map_setting_assignment (v : Config) (named : List Setting) :
    (named.map v.assignment).map (·.setting) = named := by
  simp [assignment, Function.comp_def]

theorem NamesIn.names (h : NamesIn v ms named) (hnodup : named.Nodup)
    (htext : Encloses '\x7b' '\x7d' (ms.map Member.text) text) :
    Names text (named.map v.assignment) := by
  obtain ⟨front, cs, back, hfront, hback, hcs, htext⟩ := htext
  refine ⟨cs ++ back, back, hback.skipSpace_eq, .inl ⟨?_, h.members hcs back, ?_⟩⟩
  · rw [htext, hfront.skipSpace_append]
    rfl
  · rwa [map_setting_assignment]

theorem names_of_list
    (h : List.Forall₂ (fun s x => s.Writes (v.get s) x) (Setting.all.take k) items)
    (htext : Encloses '[' ']' items text) :
    Names text ((Setting.all.take k).map v.assignment) := by
  obtain ⟨front, cs, back, hfront, hback, hcs, htext⟩ := htext
  refine ⟨cs ++ back, back, hback.skipSpace_eq, .inr ⟨?_, elements_of_listed h hcs back⟩⟩
  rw [htext, hfront.skipSpace_append]
  rfl

/-- The result is that of the defaults with the values of these settings in `v`: they are taken if
they are acceptable, and otherwise refused for what is wrong with them. -/
def Resolves (v : Config) (named : List Setting) (result : Except Fault Config) : Prop :=
  ∃ c : Config, (∀ s, c.get s = if s ∈ named then v.get s else ({} : Config).get s) ∧
    (c.validate = .ok () → result = .ok c) ∧
    ∀ e, c.validate = .error e → result = .error (.config e)

theorem get_setAll_assignments (v c : Config) (hnodup : named.Nodup) (s : Setting) :
    (c.setAll (named.map v.assignment)).get s = if s ∈ named then v.get s else c.get s := by
  have hvalue : ∀ named : List Setting,
      valueOf? s (named.map v.assignment) = if s ∈ named then some (v.get s) else none := by
    intro named
    induction named with
    | nil => rfl
    | cons t named ih =>
      rw [List.map_cons, valueOf?, ih]
      by_cases hts : t = s
      · subst hts
        simp [assignment]
      · simp [assignment, hts, Ne.symm hts]
  rw [get_setAll (by rwa [map_setting_assignment]), hvalue]
  split <;> rfl

/-- Where a text gives just these values, nothing else in it matters. -/
theorem resolves_of_names (hnodup : named.Nodup) (h : Names text (named.map v.assignment)) :
    Resolves v named (ofText text) := by
  have hparse := parse_eq_ok_iff.2 ⟨_, h, rfl⟩
  have htext : ofText text = (({} : Config).setAll (named.map v.assignment)).accept := by
    unfold ofText
    rw [hparse]
    rfl
  refine ⟨_, get_setAll_assignments v {} hnodup, fun hvalid => ?_, fun e hfault => ?_⟩
  · rw [htext]
    exact accept_eq_ok_iff.2 ⟨hvalid, rfl⟩
  · rw [htext]
    exact accept_eq_error_iff.2 ⟨e, hfault, rfl⟩

theorem Resolves.unique {r r' : Except Fault Config} (h : Resolves v named r)
    (h' : Resolves v named' r') (hnamed : ∀ s, s ∈ named ↔ s ∈ named') : r = r' := by
  obtain ⟨c, hget, hok, herror⟩ := h
  obtain ⟨c', hget', hok', herror'⟩ := h'
  obtain rfl : c = c' := ext_get fun s => by rw [hget, hget', if_congr (hnamed s) rfl rfl]
  cases hvalid : c.validate with
  | ok u => rw [hok hvalid, hok' hvalid]
  | error e => rw [herror e hvalid, herror' e hvalid]

theorem Resolves.eq_ok {result : Except Fault Config} {c : Config} (h : Resolves v named result)
    (hget : ∀ s, c.get s = if s ∈ named then v.get s else ({} : Config).get s)
    (hvalid : c.validate = .ok ()) : result = .ok c := by
  obtain ⟨c', hget', hok, -⟩ := h
  obtain rfl : c' = c := ext_get fun s => (hget' s).trans (hget s).symm
  exact hok hvalid

/-! ## Settings that are named twice -/

/-- A name that stands twice among the members stands for a setting that is found twice. -/
theorem not_nodup_of_duplicate {names : List (List Char)} {s : Setting}
    (h : List.Duplicate s.name.toList names) :
    ¬ (names.filterMap fun name => Setting.ofName? (String.ofList name)).Nodup := by
  have hsublist := (List.duplicate_iff_sublist.1 h).filterMap fun name =>
    Setting.ofName? (String.ofList name)
  simp only [List.filterMap_cons, List.filterMap_nil, Setting.ofName?_ofList_name] at hsublist
  exact fun hnodup => List.Duplicate.not_nodup (List.duplicate_iff_sublist.2 hsublist) hnodup

theorem ofText_of_duplicate {names : List (List Char)} (h : HaveNames ms names)
    (htext : Encloses '\x7b' '\x7d' (ms.map Member.text) text) {s : Setting}
    (htwice : List.Duplicate s.name.toList names) :
    ∃ fault, ofText text = .error (.json fault) := by
  cases hparse : parse text with
  | error fault =>
    refine ⟨fault, ?_⟩
    unfold ofText
    rw [hparse]
    rfl
  | ok c =>
    exfalso
    obtain ⟨front, cs, back, hfront, hback, hcs, htext⟩ := htext
    obtain ⟨as, ⟨body, rest, -, hform⟩, -⟩ := parse_eq_ok_iff.1 hparse
    rw [htext, hfront.skipSpace_append] at hform
    obtain ⟨hbody, hmembers, hnodup⟩ | ⟨hbody, -⟩ := hform
    · obtain rfl : cs ++ back = body := List.cons.inj hbody |>.2
      rw [hmembers.settings_eq h hcs] at hnodup
      exact not_nodup_of_duplicate htwice hnodup
    · cases hbody

end Given

/-! ## All texts -/

/-- The text is an object that names just these settings, each once and in this order, with their
values in `v`, among members with other names. -/
def ObjectOf (v : Config) (named : List Setting) (text : String) : Prop :=
  named.Nodup ∧ ∃ ms, NamesIn v ms named ∧ Encloses '\x7b' '\x7d' (ms.map Member.text) text

/-- The text is the list of the values in `v` of the first `k` settings. -/
def ListOf (v : Config) (k : ℕ) (text : String) : Prop :=
  ∃ items, List.Forall₂ (fun s x => s.Writes (v.get s) x) (Setting.all.take k) items ∧
    Encloses '[' ']' items text

/-- The text is an object in which a setting is named twice, with any values. -/
def NamesTwice (text : String) : Prop :=
  ∃ ms names, HaveNames ms names ∧ Encloses '\x7b' '\x7d' (ms.map Member.text) text ∧
    ∃ s : Setting, List.Duplicate s.name.toList names

section AllTexts

variable {v : Config} {named : List Setting} {text : String} {k : ℕ}

theorem spells_name (s : Setting) : Spells s.name.toList s.name.toList := by
  refine Json.spells_self ?_
  cases s <;> simp [Setting.name]

theorem exists_objectOf (h : ∀ s : Setting, s.InRange (v.get s)) (hnodup : named.Nodup) :
    ∃ text, ObjectOf v named text := by
  have hmembers : ∀ named : List Setting, ∃ ms, NamesIn v ms named := by
    intro named
    induction named with
    | nil => exact ⟨[], .nil⟩
    | cons s named ih =>
      obtain ⟨ms, hms⟩ := ih
      obtain ⟨cs, hcs⟩ := Setting.exists_writes (h s)
      exact ⟨⟨s.name.toList, [], [], cs, Json.blank_nil, Json.blank_nil⟩ :: ms,
        .setting (spells_name s) hcs hms⟩
  obtain ⟨ms, hms⟩ := hmembers named
  obtain ⟨text, htext⟩ := Json.exists_encloses '\x7b' '\x7d' (ms.map Member.text)
  exact ⟨text, hnodup, ms, hms, htext⟩

theorem exists_listOf (h : ∀ s : Setting, s.InRange (v.get s)) (k : ℕ) :
    ∃ text, ListOf v k text := by
  choose cs hcs using fun s => Setting.exists_writes (h s)
  obtain ⟨text, htext⟩ := Json.exists_encloses '[' ']' ((Setting.all.take k).map cs)
  refine ⟨text, _, ?_, htext⟩
  rw [List.forall₂_map_right_iff]
  exact List.forall₂_same.2 fun s _ => hcs s

theorem ObjectOf.resolves (h : ObjectOf v named text) : Resolves v named (ofText text) := by
  obtain ⟨hnodup, ms, hms, htext⟩ := h
  exact resolves_of_names hnodup (hms.names hnodup htext)

theorem ListOf.resolves (h : ListOf v k text) :
    Resolves v (Setting.all.take k) (ofText text) := by
  obtain ⟨items, hitems, htext⟩ := h
  exact resolves_of_names (nodup_all.sublist (List.take_sublist k _)) (names_of_list hitems htext)

end AllTexts

/-- The values of `v` that a file names are put in for the defaults, and what comes of it is taken
if it is acceptable and refused for its own fault if not. Neither the order of the members nor the
other members nor the form of the file matter, and every configuration in range can be written in
either form. A file that names a setting twice is refused as it is read. -/
theorem ofText_partial (v : Config) :
    (∀ named text, ObjectOf v named text → Resolves v named (ofText text)) ∧
      (∀ named named' text text', ObjectOf v named text → ObjectOf v named' text' →
        (∀ s, s ∈ named ↔ s ∈ named') → ofText text = ofText text') ∧
      (∀ k text, ListOf v k text → Resolves v (Setting.all.take k) (ofText text)) ∧
      (∀ k named text text', ListOf v k text → ObjectOf v named text' →
        (∀ s, s ∈ Setting.all.take k ↔ s ∈ named) → ofText text = ofText text') ∧
      (∀ text, NamesTwice text → ∃ fault, ofText text = .error (.json fault)) ∧
      ((∀ s : Setting, s.InRange (v.get s)) →
        (∀ named : List Setting, named.Nodup → ∃ text, ObjectOf v named text) ∧
          ∀ k, ∃ text, ListOf v k text) := by
  refine ⟨fun named text h => h.resolves, fun named named' text text' h h' hnamed => ?_,
    fun k text h => h.resolves, fun k named text text' h h' hnamed => ?_, ?_,
    fun h => ⟨fun named hnodup => exists_objectOf h hnodup, exists_listOf h⟩⟩
  · exact h.resolves.unique h'.resolves hnamed
  · exact h.resolves.unique h'.resolves hnamed
  · rintro text ⟨ms, names, hnames, htext, s, htwice⟩
    exact ofText_of_duplicate hnames htext htwice

/-- A week ahead of an announcement and a smaller multiplier, with four events for an alert. -/
def weekAhead : Config :=
  { preAnnouncementWindowDays := 7, abnormalVolumeMultiplier := 2.5, saveIntermediates := true,
    minSuspiciousEvents := 4 }

/-- Two settings, one behind an escape, and a note between them. -/
def sparseText : String :=
  "\x7b\"\\u006din_suspicious_events\" : 4,\n \"note\":[1, null],\"save_intermediates\":true \x7d\n"

/-- The first two settings. -/
def weekAheadText : String :=
  "[7 ,25e-1]"

/-- One setting twice, the second time without a number. -/
def twiceText : String :=
  "\x7b\"profit_threshold_pct\":4,\"profit_threshold_pct\":null\x7d"

theorem numeral_digit {c : Char} (h : [c].all Char.isDigit = true) (hne : c ≠ '0') :
    Numeral [c] ⟨Text.valueOf [c], 0⟩ :=
  .intro (.cons hne h) .none .none

theorem objectOf_sparseText :
    ObjectOf weekAhead [.minSuspiciousEvents, .saveIntermediates] sparseText := by
  have hspace : Blank [' '] := by simp [Blank, Json.isSpace]
  have hnewline : Blank ['\n'] := by simp [Blank, Json.isSpace]
  have hindent : Blank ['\n', ' '] := by simp [Blank, Json.isSpace]
  have hescape : Spells "\\u006din_suspicious_events".toList
      Setting.minSuspiciousEvents.name.toList := by
    have hcode : Json.HexCode "006d".toList 109 := ⟨by simp, by decide, by decide⟩
    have htail : Spells "in_suspicious_events".toList "in_suspicious_events".toList :=
      Json.spells_self (by simp)
    exact .code hcode (by decide) htail
  have hnote : Spells "note".toList "note".toList := Json.spells_self (by simp)
  have hlist : IsValue ['[', '1', ',', ' ', 'n', 'u', 'l', 'l', ']'] := by
    have hitems : ∀ x ∈ [['1'], ['n', 'u', 'l', 'l']], IsValue x := by
      simp only [List.mem_cons, List.not_mem_nil, or_false]
      rintro x (rfl | rfl)
      · exact .number false (numeral_digit (by decide) (by decide))
      · exact .null
    exact .list hitems
      (.item (.first Json.blank_nil) (.item (.comma Json.blank_nil hspace) (.close Json.blank_nil)))
  let ms : List Member := [
    ⟨"\\u006din_suspicious_events".toList, [' '], [' '], ['4'], hspace, hspace⟩,
    ⟨"note".toList, [], [], ['[', '1', ',', ' ', 'n', 'u', 'l', 'l', ']'], Json.blank_nil,
      Json.blank_nil⟩,
    ⟨"save_intermediates".toList, [], [], ['t', 'r', 'u', 'e'], Json.blank_nil, Json.blank_nil⟩]
  have hnames : NamesIn weekAhead ms [.minSuspiciousEvents, .saveIntermediates] := by
    have hfour : WritesNat 4 ['4'] := ⟨by decide, by decide⟩
    refine .setting hescape hfour (.other hnote ?_ hlist
      (.setting (spells_name .saveIntermediates) rfl .nil))
    intro s
    cases s <;> simp [Setting.name]
  refine ⟨by decide, ms, hnames, [], _, ['\n'], Json.blank_nil, hnewline,
    .item (.first Json.blank_nil) (.item (.comma Json.blank_nil hindent)
      (.item (.comma Json.blank_nil Json.blank_nil) (.close hspace))), ?_⟩
  simp [sparseText, Member.text]

theorem listOf_weekAheadText : ListOf weekAhead 2 weekAheadText := by
  have hspace : Blank [' '] := by simp [Blank, Json.isSpace]
  have hdays : WritesInt 7 ['7'] := ⟨by decide, by decide⟩
  have hnumeral : Numeral ['2', '5', 'e', '-', '1'] ⟨25, -1⟩ := by
    have hwhole : Json.Whole ['2', '5'] := .cons (by decide) (by decide)
    have hpower : Json.Power ['e', '-', '1'] (-1) :=
      .signed true (.inl rfl) (List.cons_ne_nil '1' []) (by decide)
    exact .intro hwhole .none hpower
  have hmultiplier : WritesDouble 2.5 ['2', '5', 'e', '-', '1'] :=
    ⟨by decide +kernel, false, _, _, hnumeral, by decide +kernel, rfl⟩
  refine ⟨_, .cons hdays (.cons hmultiplier .nil), [], _, [], Json.blank_nil, Json.blank_nil,
    .item (.first Json.blank_nil) (.item (.comma hspace Json.blank_nil)
      (.close Json.blank_nil)), ?_⟩
  simp [weekAheadText]

theorem namesTwice_twiceText : NamesTwice twiceText := by
  have hname := spells_name .profitThreshold
  let ms : List Member := [
    ⟨"profit_threshold_pct".toList, [], [], ['4'], Json.blank_nil, Json.blank_nil⟩,
    ⟨"profit_threshold_pct".toList, [], [], ['n', 'u', 'l', 'l'], Json.blank_nil, Json.blank_nil⟩]
  have hnames : HaveNames ms ["profit_threshold_pct".toList, "profit_threshold_pct".toList] :=
    .cons ⟨hname, .number false (numeral_digit (by decide) (by decide))⟩
      (.cons ⟨hname, .null⟩ .nil)
  refine ⟨ms, _, hnames, ⟨[], _, [], Json.blank_nil, Json.blank_nil,
    .item (.first Json.blank_nil) (.item (.comma Json.blank_nil Json.blank_nil)
      (.close Json.blank_nil)), ?_⟩, .profitThreshold, .cons_mem List.mem_cons_self⟩
  simp [twiceText, Member.text]

theorem ofText_partial_weekAhead :
    ofText sparseText = .ok { saveIntermediates := true, minSuspiciousEvents := 4 } ∧
      ofText weekAheadText =
        .ok { preAnnouncementWindowDays := 7, abnormalVolumeMultiplier := 2.5 } ∧
      ∃ fault, ofText twiceText = .error (.json fault) := by
  obtain ⟨hobject, -, hlist, -, htwice, -⟩ := ofText_partial weekAhead
  refine ⟨?_, ?_, htwice twiceText namesTwice_twiceText⟩
  · refine (hobject _ _ objectOf_sparseText).eq_ok (fun s => ?_) (by decide +kernel)
    cases s <;> rfl
  · refine (hlist 2 _ listOf_weekAheadText).eq_ok (fun s => ?_) (by decide +kernel)
    cases s <;> rfl

end Config

end TradeWatch
