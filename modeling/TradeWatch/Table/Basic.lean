/-
Tables: named columns of one length, each with cells of one type, where a cell may be missing.
Several columns may have one name; the first of them is the one that the name means.
-/
import TradeWatch.Fault
import TradeWatch.Time.Printed
import TradeWatch.Time.Stamp

namespace TradeWatch

/-! ## Columns -/

inductive ColumnType
  | text
  | int
  | real
  | flag
  | date
  | time (unit : Time.Resolution) (zone : Option String)
  | blank
  | texts
  | ints
deriving DecidableEq, Repr

inductive Column
  | text (cells : List (Option String))
  | int (cells : List (Option Int))
  | real (cells : List (Option Float))
  | flag (cells : List (Option Bool))
  /-- Days since the start of 1970. -/
  | date (cells : List (Option Int))
  /-- Times counted from the start of 1970, with the text of a time zone. -/
  | time (unit : Time.Resolution) (zone : Option String) (cells : List (Option Int))
  /-- Cells that are all missing. -/
  | blank (count : Nat)
  | texts (cells : List (Option (List String)))
  | ints (cells : List (Option (List (Option Int))))
deriving Inhabited

namespace Column

def type : Column → ColumnType
  | text _ => .text
  | int _ => .int
  | real _ => .real
  | flag _ => .flag
  | date _ => .date
  | time unit zone _ => .time unit zone
  | blank _ => .blank
  | texts _ => .texts
  | ints _ => .ints

def size : Column → Nat
  | text cells => cells.length
  | int cells => cells.length
  | real cells => cells.length
  | flag cells => cells.length
  | date cells => cells.length
  | time _ _ cells => cells.length
  | blank count => count
  | texts cells => cells.length
  | ints cells => cells.length

/-- The cells of the second column after those of the first, which has to be of the same type. -/
def append? : Column → Column → Option Column
  | text a, text b => some (text (a ++ b))
  | int a, int b => some (int (a ++ b))
  | real a, real b => some (real (a ++ b))
  | flag a, flag b => some (flag (a ++ b))
  | date a, date b => some (date (a ++ b))
  | time u z a, time v y b => if u = v ∧ z = y then some (time u z (a ++ b)) else none
  | blank m, blank n => some (blank (m + n))
  | texts a, texts b => some (texts (a ++ b))
  | ints a, ints b => some (ints (a ++ b))
  | _, _ => none

/-- The `count` cells from the cell `start` on. -/
def slice (start count : Nat) : Column → Column
  | text cells => text ((cells.drop start).take count)
  | int cells => int ((cells.drop start).take count)
  | real cells => real ((cells.drop start).take count)
  | flag cells => flag ((cells.drop start).take count)
  | date cells => date ((cells.drop start).take count)
  | time u z cells => time u z ((cells.drop start).take count)
  | blank n => blank (min count (n - start))
  | texts cells => texts ((cells.drop start).take count)
  | ints cells => ints ((cells.drop start).take count)

theorem size_append? {a b c : Column} (h : append? a b = some c) : c.size = a.size + b.size := by
  cases a <;> cases b <;> simp only [append?, Option.some.injEq, reduceCtorEq] at h <;>
    first
      | (subst h; simp [size])
      | (split at h <;> simp only [Option.some.injEq, reduceCtorEq] at h; subst h; simp [size])

theorem size_slice (start count : Nat) (c : Column) :
    (c.slice start count).size = min count (c.size - start) := by
  cases c <;> simp [slice, size]

end Column

/-! ## Tables -/

structure Table where
  rows : Nat
  columns : List (String × Column)
  aligned : ∀ c ∈ columns, c.2.size = rows

namespace Table

instance : Inhabited Table := ⟨⟨0, [], by simp⟩⟩

/-- A table of these columns, if they have one length; without any it has no rows. -/
def ofColumns? (columns : List (String × Column)) : Option Table :=
  let rows := match columns with
    | [] => 0
    | c :: _ => c.2.size
  if h : ∀ c ∈ columns, c.2.size = rows then some ⟨rows, columns, h⟩ else none

/-- The column that a name means. -/
def find? (t : Table) (name : String) : Option (String × Column) :=
  t.columns.find? fun c => c.1 == name

def column? (t : Table) (name : String) : Option Column :=
  (t.find? name).map (·.2)

/-- The column of a name, whose absence is a fault of the table called `table`. -/
def column (t : Table) (table name : String) : Except Fault Column :=
  match t.column? name with
  | some c => .ok c
  | none => .error (.missingColumn table name)

/-! ### Choosing columns -/

/-- The named columns in the order of the names. -/
def pick (t : Table) (table : String) :
    List String → Except Fault { cs : List (String × Column) // ∀ c ∈ cs, c.2.size = t.rows }
  | [] => .ok ⟨[], by simp⟩
  | name :: names =>
    match h : t.find? name with
    | none => .error (.missingColumn table name)
    | some c => do
      let rest ← pick t table names
      .ok ⟨c :: rest.1, by
        intro d hd
        rcases List.mem_cons.mp hd with rfl | hd
        · exact t.aligned d (List.mem_of_find?_eq_some h)
        · exact rest.2 d hd⟩

/-- Keeps the named columns; no names keep everything. -/
def project (t : Table) (table : String) (names : List String) : Except Fault Table :=
  if names.isEmpty then .ok t
  else do
    let cs ← t.pick table names
    .ok ⟨t.rows, cs.1, cs.2⟩

/-! ### Columns without missing cells -/

end Table

namespace Column

def ofTexts (xs : List String) : Column := text (xs.map some)
def ofInts (xs : List Int) : Column := int (xs.map some)
def ofCounts (xs : List Nat) : Column := int (xs.map fun (n : Nat) => some (n : Int))
def ofReals (xs : List Float) : Column := real (xs.map some)
def ofFlags (xs : List Bool) : Column := flag (xs.map some)
def ofLists (xs : List (List String)) : Column := texts (xs.map some)

/-- The zone of times in UTC. -/
def utcZone : String := "+00:00"

/-- The milliseconds that the text of a time stands for. -/
def millisOfText? (s : String) : Option Int :=
  (Time.Stamp.read? s).map (·.count .milli)

/-- An instant on its way into a column goes through its text, which may have no reading. -/
def storedMillis? (t : Time.Instant) : Option Int :=
  millisOfText? t.text

def ofInstants (xs : List Time.Instant) : Column :=
  time .milli (some utcZone) (xs.map storedMillis?)

/-- The greatest count that a column of integers holds. -/
def maxCount : Nat := signedEnd - 1

end Column

namespace Table

/-! ### Rows in batches -/

/-- The names and types of the columns. -/
def layout (t : Table) : List (String × ColumnType) :=
  t.columns.map fun c => (c.1, c.2.type)

/-- The `count` rows from the row `start` on. -/
def slice (start count : Nat) (t : Table) : Table :=
  ⟨min count (t.rows - start), t.columns.map fun c => (c.1, c.2.slice start count), by
    intro c hc
    obtain ⟨d, hd, rfl⟩ := List.mem_map.mp hc
    simp [Column.size_slice, t.aligned d hd]⟩

/-- Pairs of columns with one name and one type, joined. -/
def appendColumns? : (a b : List (String × Column)) → Option (List (String × Column))
  | [], [] => some []
  | (k, x) :: xs, (l, y) :: ys =>
    if k = l then do
      let z ← x.append? y
      let zs ← appendColumns? xs ys
      some ((k, z) :: zs)
    else none
  | _, _ => none

theorem size_appendColumns? {m n : Nat} : ∀ {a b c : List (String × Column)},
    appendColumns? a b = some c → (∀ x ∈ a, x.2.size = m) → (∀ x ∈ b, x.2.size = n) →
    ∀ x ∈ c, x.2.size = m + n
  | [], [], c, h, _, _ => by simp [appendColumns?] at h; subst h; simp
  | [], _ :: _, c, h, _, _ => by simp [appendColumns?] at h
  | _ :: _, [], c, h, _, _ => by simp [appendColumns?] at h
  | (k, x) :: xs, (l, y) :: ys, c, h, ha, hb => by
    unfold appendColumns? at h
    split at h
    · cases hz : x.append? y with
      | none => simp [hz] at h
      | some z =>
        cases hr : appendColumns? xs ys with
        | none => simp [hz, hr] at h
        | some zs =>
          simp [hz, hr] at h
          subst h
          intro e he
          rcases List.mem_cons.mp he with rfl | he
          · simp only [Column.size_append? hz]
            rw [← ha (k, x) List.mem_cons_self, ← hb (l, y) List.mem_cons_self]
          · exact size_appendColumns? hr (fun e he => ha e (List.mem_cons_of_mem _ he))
              (fun e he => hb e (List.mem_cons_of_mem _ he)) e he
    · cases h

/-- The rows of the second table after those of the first, if their layouts agree. -/
def append? (a b : Table) : Option Table :=
  match h : appendColumns? a.columns b.columns with
  | none => none
  | some columns => some ⟨a.rows + b.rows, columns, size_appendColumns? h a.aligned b.aligned⟩

/-- One table from batches of rows. -/
def concat? (first : Table) : List Table → Option Table
  | [] => some first
  | next :: rest => do
    let t ← first.append? next
    t.concat? rest

end Table

end TradeWatch
