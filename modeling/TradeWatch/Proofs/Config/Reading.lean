/-
What the text of a file names. The text is an object that names some settings, each once, in any
order and among other members, or the list of the values of the first settings; reading it puts these
values in for the defaults.
-/
import TradeWatch.Proofs.Config.Settings
import TradeWatch.Proofs.Json.Remainder

namespace TradeWatch.Config

/-! ## The two forms -/

/-- The members of an object up to its closing brace: the settings among them, with their values, and
the text behind the brace. -/
inductive Members : Bool → List Char → List Assignment → List Char → Prop
  | close {first : Bool} {cs rest : List Char} (hclose : Json.nextMember first cs = .ok (.close rest)) :
      Members first cs [] rest
  | other {first : Bool} {cs key afterKey text after rest : List Char} {name : String}
      {as : List Assignment} (hmore : Json.nextMember first cs = .ok (.more key))
      (hkey : Json.string key = .ok (name, afterKey)) (hname : Setting.ofName? name = none)
      (hcolon : Json.colon afterKey = .ok ((), text)) (hskip : Json.skip text = .ok ((), after))
      (hrest : Members false after as rest) : Members first cs as rest
  | setting {first : Bool} {cs key afterKey text after rest : List Char} {name : String}
      {as : List Assignment} {s : Setting} {v : s.Value}
      (hmore : Json.nextMember first cs = .ok (.more key))
      (hkey : Json.string key = .ok (name, afterKey)) (hname : Setting.ofName? name = some s)
      (hcolon : Json.colon afterKey = .ok ((), text)) (hvalue : s.reader text = .ok (v, after))
      (hrest : Members false after as rest) : Members first cs (⟨s, v⟩ :: as) rest

/-- The values of the first of some settings up to the closing bracket. -/
inductive Elements : List Setting → Bool → List Char → List Assignment → List Char → Prop
  | all {first : Bool} {cs rest : List Char} (hclose : Json.skipSpace cs = ']' :: rest) :
      Elements [] first cs [] rest
  | close {s : Setting} {settings : List Setting} {first : Bool} {cs rest : List Char}
      (hclose : Json.nextElement first cs = .ok (.close rest)) :
      Elements (s :: settings) first cs [] rest
  | setting {s : Setting} {settings : List Setting} {first : Bool} {cs text after rest : List Char}
      {as : List Assignment} {v : s.Value} (hmore : Json.nextElement first cs = .ok (.more text))
      (hvalue : s.reader text = .ok (v, after)) (hrest : Elements settings false after as rest) :
      Elements (s :: settings) first cs (⟨s, v⟩ :: as) rest

/-- The text gives these values. -/
def Names (text : String) (named : List Assignment) : Prop :=
  ∃ body rest, Json.skipSpace rest = [] ∧
    (Json.skipSpace text.toList = '\x7b' :: body ∧ Members true body named rest ∧
        (named.map (·.setting)).Nodup ∨
      Json.skipSpace text.toList = '[' :: body ∧ Elements Setting.all true body named rest)

/-! ## Reading members -/

variable {c d : Config} {cs rest : List Char} {first : Bool} {as : List Assignment}

theorem takesFront_reader (s : Setting) : Json.TakesFront s.reader := by
  cases s with
  | preAnnouncementWindowDays => exact Json.takesFront_integer _
  | networkWindowDays => exact Json.takesFront_integer _
  | leakageWindowHours => exact Json.takesFront_integer _
  | abnormalVolumeMultiplier => exact Json.takesFront_double
  | abnormalReturnThreshold => exact Json.takesFront_double
  | profitThreshold => exact Json.takesFront_double
  | saveIntermediates => exact Json.takesFront_boolean
  | syntheticEventSeed => exact Json.takesFront_optional Json.takesFront_unsigned
  | _ => exact Json.takesFront_unsigned

theorem readSetting_eq_ok_iff {s : Setting} :
    readSetting c s cs = .ok (d, rest) ↔ ∃ v, s.reader cs = .ok (v, rest) ∧ d = c.set s v := by
  rw [readSetting_eq, reading, bind_eq_ok_iff]
  constructor
  · rintro ⟨⟨v, left⟩, hv, h⟩
    cases h
    exact ⟨v, hv, rfl⟩
  · rintro ⟨v, hv, rfl⟩
    exact ⟨_, hv, rfl⟩

/-- Members that were read are there, and none of their settings was seen before. -/
theorem exists_members {fuel : ℕ} {seen : List Setting}
    (h : readMembers fuel first seen c cs = .ok (d, rest)) :
    ∃ as, Members first cs as rest ∧ (as.map (·.setting)).Nodup ∧
      (∀ a ∈ as, a.setting ∉ seen) ∧ d = c.setAll as := by
  induction fuel generalizing first seen c cs with
  | zero => cases h
  | succ fuel ih =>
    obtain ⟨step, hstep, h⟩ := bind_eq_ok_iff.1 h
    cases step with
    | close left =>
      cases h
      exact ⟨[], .close hstep, List.nodup_nil, by simp, rfl⟩
    | more key =>
      obtain ⟨⟨name, afterKey⟩, hkey, h⟩ := bind_eq_ok_iff.1 h
      dsimp only at h
      split at h
      · rename_i hname
        obtain ⟨⟨⟨⟩, text⟩, hcolon, h⟩ := bind_eq_ok_iff.1 h
        obtain ⟨⟨⟨⟩, after⟩, hskip, h⟩ := bind_eq_ok_iff.1 h
        obtain ⟨as, has, hnodup, hnew, hd⟩ := ih h
        exact ⟨as, .other hstep hkey hname hcolon hskip has, hnodup, hnew, hd⟩
      · rename_i s hname
        split at h
        · cases h
        · rename_i hs
          obtain ⟨⟨⟨⟩, text⟩, hcolon, h⟩ := bind_eq_ok_iff.1 h
          obtain ⟨⟨c', after⟩, hset, h⟩ := bind_eq_ok_iff.1 h
          obtain ⟨v, hvalue, rfl⟩ := readSetting_eq_ok_iff.1 hset
          obtain ⟨as, has, hnodup, hnew, hd⟩ := ih h
          refine ⟨⟨s, v⟩ :: as, .setting hstep hkey hname hcolon hvalue has, ?_, ?_, hd⟩
          · refine List.nodup_cons.2 ⟨fun hmem => ?_, hnodup⟩
            obtain ⟨a, ha, rfl⟩ := List.mem_map.1 hmem
            exact hnew a ha List.mem_cons_self
          · intro a ha
            rcases List.mem_cons.1 ha with rfl | ha
            · exact hs
            · exact fun hmem => hnew a ha (List.mem_cons_of_mem _ hmem)

/-- Members that are there are read with fuel for each character. -/
theorem Members.readMembers_eq (h : Members first cs as rest) :
    ∀ {fuel : ℕ} {seen : List Setting} {c : Config}, cs.length < fuel →
      (as.map (·.setting)).Nodup → (∀ a ∈ as, a.setting ∉ seen) →
        readMembers fuel first seen c cs = .ok (c.setAll as, rest) := by
  induction h with
  | close hclose =>
    intro fuel seen c hfuel _ _
    obtain ⟨fuel, rfl⟩ : ∃ n, fuel = n + 1 := ⟨fuel - 1, by omega⟩
    rw [readMembers, hclose]
    rfl
  | @other first cs key afterKey text after rest name as hmore hkey hname hcolon hskip hrest ih =>
    intro fuel seen c hfuel hnodup hnew
    obtain ⟨fuel, rfl⟩ : ∃ n, fuel = n + 1 := ⟨fuel - 1, by omega⟩
    -- the text behind the member is shorter
    have hlength : after.length < cs.length :=
      Nat.lt_of_le_of_lt (((Json.takesFront_skip hskip).trans (Json.takesFront_colon hcolon)).trans
        (Json.takesFront_string hkey)).length_le (Json.length_of_nextMember hmore).2
    rw [readMembers, hmore]
    simp only [Bind.bind, Except.bind, hkey, hname, hcolon, hskip]
    exact ih (by omega) hnodup hnew
  | @setting first cs key afterKey text after rest name as s v hmore hkey hname hcolon hvalue hrest
      ih =>
    intro fuel seen c hfuel hnodup hnew
    obtain ⟨fuel, rfl⟩ : ∃ n, fuel = n + 1 := ⟨fuel - 1, by omega⟩
    have hlength : after.length < cs.length :=
      Nat.lt_of_le_of_lt (((takesFront_reader s hvalue).trans (Json.takesFront_colon hcolon)).trans
        (Json.takesFront_string hkey)).length_le (Json.length_of_nextMember hmore).2
    rw [List.map_cons, List.nodup_cons] at hnodup
    have hset : readSetting c s text = .ok (c.set s v, after) :=
      readSetting_eq_ok_iff.2 ⟨v, hvalue, rfl⟩
    rw [readMembers, hmore]
    simp only [Bind.bind, Except.bind, hkey, hname, if_neg (hnew _ List.mem_cons_self), hcolon, hset]
    refine ih (by omega) hnodup.2 fun a ha hmem => ?_
    rcases List.mem_cons.1 hmem with heq | hmem
    · exact hnodup.1 (List.mem_map.2 ⟨a, ha, heq⟩)
    · exact hnew a (List.mem_cons_of_mem _ ha) hmem

/-! ## Reading a list -/

theorem readList_eq_ok_iff {settings : List Setting} :
    readList settings first c cs = .ok (d, rest) ↔
      ∃ as, Elements settings first cs as rest ∧ d = c.setAll as := by
  induction settings generalizing first c cs with
  | nil =>
    unfold readList
    constructor
    · intro h
      split at h
      · cases h
      · rename_i e after hcs
        split at h
        · rename_i he
          cases h
          exact ⟨[], .all (he ▸ hcs), rfl⟩
        · cases h
    · rintro ⟨as, has, rfl⟩
      cases has with
      | all hclose =>
        rw [hclose]
        rfl
  | cons s settings ih =>
    rw [readList, bind_eq_ok_iff]
    constructor
    · rintro ⟨step, hstep, h⟩
      cases step with
      | close left =>
        cases h
        exact ⟨[], .close hstep, rfl⟩
      | more text =>
        obtain ⟨⟨c', after⟩, hset, h⟩ := bind_eq_ok_iff.1 h
        obtain ⟨v, hvalue, rfl⟩ := readSetting_eq_ok_iff.1 hset
        obtain ⟨as, has, hd⟩ := ih.1 h
        exact ⟨⟨s, v⟩ :: as, .setting hstep hvalue has, hd⟩
    · rintro ⟨as, has, rfl⟩
      cases has with
      | close hclose => exact ⟨_, hclose, rfl⟩
      | @setting _ _ _ _ _ after _ as v hmore hvalue hrest =>
        refine ⟨_, hmore, bind_eq_ok_iff.2 ⟨(c.set s v, after), ?_, ih.2 ⟨as, hrest, rfl⟩⟩⟩
        exact readSetting_eq_ok_iff.2 ⟨v, hvalue, rfl⟩

theorem Elements.prefix {settings : List Setting} (h : Elements settings first cs as rest) :
    as.map (·.setting) <+: settings := by
  induction h with
  | all hclose => exact List.prefix_refl _
  | close hclose => exact List.nil_prefix
  | setting hmore hvalue hrest ih => exact (List.prefix_cons_inj _).2 ih

theorem nodup_all : Setting.all.Nodup := by
  decide

/-- No setting is named twice. -/
theorem Names.nodup {text : String} (h : Names text as) : (as.map (·.setting)).Nodup := by
  obtain ⟨body, rest, -, ⟨-, -, hnodup⟩ | ⟨-, helements⟩⟩ := h
  · exact hnodup
  · exact nodup_all.sublist helements.prefix.sublist

/-! ## Reading a text -/

theorem read_eq_ok_iff :
    read cs = .ok (c, rest) ↔
      ∃ body named, c = ({} : Config).setAll named ∧
        (Json.skipSpace cs = '\x7b' :: body ∧ Members true body named rest ∧
            (named.map (·.setting)).Nodup ∨
          Json.skipSpace cs = '[' :: body ∧ Elements Setting.all true body named rest) := by
  unfold read
  constructor
  · intro h
    split at h
    · cases h
    · rename_i d body hcs
      split at h
      · rename_i hd
        obtain ⟨named, hmembers, hnodup, -, hc⟩ := exists_members h
        exact ⟨body, named, hc, .inl ⟨hd ▸ hcs, hmembers, hnodup⟩⟩
      · split at h
        · rename_i hd
          obtain ⟨named, helements, hc⟩ := readList_eq_ok_iff.1 h
          exact ⟨body, named, hc, .inr ⟨hd ▸ hcs, helements⟩⟩
        · cases h
  · rintro ⟨body, named, rfl, ⟨hcs, hmembers, hnodup⟩ | ⟨hcs, helements⟩⟩
    · rw [hcs]
      exact hmembers.readMembers_eq (Nat.lt_succ_self _) hnodup fun _ _ => List.not_mem_nil
    · rw [hcs]
      exact readList_eq_ok_iff.2 ⟨named, helements, rfl⟩

/-- A text is read just when it gives some values, which are then put in for the defaults. -/
theorem parse_eq_ok_iff {text : String} :
    parse text = .ok c ↔ ∃ named, Names text named ∧ c = ({} : Config).setAll named := by
  unfold parse Json.whole
  rw [bind_eq_ok_iff]
  constructor
  · rintro ⟨⟨c', rest⟩, hread, h⟩
    dsimp only at h
    split at h
    · rename_i hrest
      cases h
      obtain ⟨body, named, hc, hform⟩ := read_eq_ok_iff.1 hread
      exact ⟨named, ⟨body, rest, List.isEmpty_iff.1 hrest, hform⟩, hc⟩
    · cases h
  · rintro ⟨named, ⟨body, rest, hrest, hform⟩, rfl⟩
    refine ⟨_, read_eq_ok_iff.2 ⟨body, named, rfl, hform⟩, ?_⟩
    dsimp only
    rw [hrest]
    rfl

end TradeWatch.Config
