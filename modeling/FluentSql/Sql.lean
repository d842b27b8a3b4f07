import FluentSql.Text.Blank
import FluentSql.Value

namespace FluentSql

/-- Written text, a fragment that came with values of its own, or the placeholder of one value. -/
inductive Piece where
  | text (s : String)
  | raw (sql : String) (values : List Value)
  | slot (v : Value)
  deriving Inhabited

def Piece.written : Piece → String
  | text s => s
  | raw sql _ => sql
  | slot _ => "?"

def Piece.values : Piece → List Value
  | text _ => []
  | raw _ values => values
  | slot v => [v]

def Piece.mapText (f : String → String) : Piece → Piece
  | text s => text (f s)
  | raw sql values => raw (f sql) values
  | slot v => slot v

structure Sql where
  pieces : List Piece
  deriving Inhabited

namespace Sql

def text (s : Sql) : String :=
  String.join (s.pieces.map Piece.written)

def slots (s : Sql) : List Value :=
  s.pieces.flatMap Piece.values

def empty : Sql := ⟨[]⟩

instance : Append Sql := ⟨fun a b ↦ ⟨a.pieces ++ b.pieces⟩⟩

instance : Coe String Sql := ⟨fun s ↦ ⟨[.text s]⟩⟩

def raw (sql : String) (values : List Value) : Sql := ⟨[.raw sql values]⟩

def slot (v : Value) : Sql := ⟨[.slot v]⟩

def join (mark : String) : List Sql → Sql
  | [] => empty
  | [s] => s
  | s :: t :: rest => s ++ mark ++ join mark (t :: rest)

def enclosed (s : Sql) : Sql :=
  ("(" : Sql) ++ s ++ ")"

def trimmedText (s : String) : String :=
  String.ofList (Text.trimEnd s.toList)

/-- Trims a piece only if nothing is written after it. -/
def trimEndPieces : List Piece → List Piece
  | [] => []
  | p :: rest =>
    let rest := trimEndPieces rest
    if rest.all fun q ↦ q.written.isEmpty then p.mapText trimmedText :: rest else p :: rest

def trimEnd (s : Sql) : Sql := ⟨trimEndPieces s.pieces⟩

@[simp] theorem pieces_append (a b : Sql) : (a ++ b).pieces = a.pieces ++ b.pieces := rfl

@[simp] theorem text_append (a b : Sql) : (a ++ b).text = a.text ++ b.text := by
  simp [text]

@[simp] theorem slots_append (a b : Sql) : (a ++ b).slots = a.slots ++ b.slots := by
  simp [slots]

@[simp] theorem text_coe (s : String) : (s : Sql).text = s := by
  simp [text, Piece.written]

@[simp] theorem slots_coe (s : String) : (s : Sql).slots = [] := rfl

@[simp] theorem slots_raw (sql : String) (values : List Value) :
    (raw sql values).slots = values := by
  simp [raw, slots, Piece.values]

@[simp] theorem slots_slot (v : Value) : (slot v).slots = [v] := rfl

@[simp] theorem slots_empty : empty.slots = [] := rfl

@[simp] theorem slots_enclosed (s : Sql) : s.enclosed.slots = s.slots := by
  simp [enclosed]

theorem slots_join (mark : String) (ss : List Sql) :
    (join mark ss).slots = ss.flatMap slots := by
  fun_induction join mark ss with
  | case1 => rfl
  | case2 s => simp
  | case3 s t rest ih => simp [ih]

@[simp] theorem slots_trimEnd (s : Sql) : s.trimEnd.slots = s.slots := by
  simp only [trimEnd, slots]
  induction s.pieces with
  | nil => rfl
  | cons p rest ih =>
    simp only [trimEndPieces]
    split
    · cases p <;> simp [Piece.mapText, Piece.values, ih]
    · simp [ih]

end Sql

end FluentSql
