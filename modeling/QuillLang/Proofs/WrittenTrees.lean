/-
# Trees as text

A tree is written as a row of words: the names, literals and marks that the
grammar wants for it, in its order.  Where the grammar leaves a choice, a
parameter is always given its type, and an `ELSE` without statements is left
out.  The words are written with single spaces between them.

Not every tree can come from a text.  In a well-formed one every name is a
name, an operand is held together at least as tightly as its place asks for,
and every literal has a text.  Two trees are the same up to their tags if they
are the same bare.
-/
import QuillLang.Proofs.Numerals
import QuillLang.Proofs.Parsing
import QuillLang.Proofs.SpacedText

namespace QuillLang

variable {α : Type}

/-! ## Bare trees

The places of a tree that is read back are those of the new text, so trees are compared without
their tags. -/

mutual

/-- An expression without its tags. -/
def Expr.bare : Expr α → Expr Unit
  | .nil _ => .nil ()
  | .boolean _ b => .boolean () b
  | .character _ s => .character () s
  | .string _ s => .string () s
  | .integer _ n => .integer () n
  | .decimal _ d => .decimal () d
  | .group _ e => .group () e.bare
  | .binary _ op l r => .binary () op l.bare r.bare
  | .var _ x => .var () x
  | .field _ e x => .field () e.bare x
  | .call _ f es => .call () f (Expr.bareAll es)
  | .invoke _ e f es => .invoke () e.bare f (Expr.bareAll es)

def Expr.bareAll : List (Expr α) → List (Expr Unit)
  | [] => []
  | e :: es => e.bare :: Expr.bareAll es

end

mutual

/-- A statement without its tags. -/
def Stmt.bare : Stmt α → Stmt Unit
  | .expr _ e => .expr () e.bare
  | .declare _ x type e => .declare () x type (e.map Expr.bare)
  | .assign _ target e => .assign () target.bare e.bare
  | .branch _ c thenBody elseBody =>
    .branch () c.bare (Stmt.bareAll thenBody) (Stmt.bareAll elseBody)
  | .forIn _ x e body => .forIn () x e.bare (Stmt.bareAll body)
  | .loop _ c body => .loop () c.bare (Stmt.bareAll body)
  | .ret _ e => .ret () e.bare

def Stmt.bareAll : List (Stmt α) → List (Stmt Unit)
  | [] => []
  | s :: ss => s.bare :: Stmt.bareAll ss

end

def Field.bare (f : Field α) : Field Unit :=
  { tag := (), name := f.name, typeName := f.typeName, value := f.value.map Expr.bare }

def Method.bare (d : Method α) : Method Unit :=
  { tag := ()
    name := d.name
    parameters := d.parameters
    parameterTypes := d.parameterTypes
    returnType := d.returnType
    body := Stmt.bareAll d.body }

/-- A program without its tags. -/
def Program.bare (p : Program α) : Program Unit :=
  { tag := (), fields := p.fields.map Field.bare, methods := p.methods.map Method.bare }

theorem Expr.bareAll_eq_map (es : List (Expr α)) : Expr.bareAll es = es.map Expr.bare := by
  induction es with
  | nil => rfl
  | cons e es ih => rw [Expr.bareAll, ih, List.map_cons]

theorem Stmt.bareAll_eq_map (ss : List (Stmt α)) : Stmt.bareAll ss = ss.map Stmt.bare := by
  induction ss with
  | nil => rfl
  | cons s ss ih => rw [Stmt.bareAll, ih, List.map_cons]

/-! ## Well-formed trees

The conditions can be computed.  They are those that reading a text guarantees, no more, so that
every tree that is read can be written. -/

/-- A text that can be a name: an identifier that is not reserved. -/
def isNameText (x : String) : Bool :=
  match x.toList with
  | [] => false
  | c :: cs => isNameStart c && cs.all isNamePart && !keywords.contains x

/-- The level that an operator belongs to. -/
def Operator.level : Operator → Parse.Level
  | .and | .or => .logical
  | .lt | .le | .gt | .ge | .eq | .ne => .comparison
  | .add | .sub => .additive
  | .mul | .div => .multiplicative

/-- How tightly the expressions of a symbol hold together. -/
def Grammar.Rank.tightness : Grammar.Rank → Nat
  | .expression => 0
  | .logical => 1
  | .comparison => 2
  | .additive => 3
  | .multiplicative => 4
  | .secondary => 5
  | .primary => 6

/-- The tightest symbol that an expression can be derived from. -/
def Expr.rank : Expr α → Grammar.Rank
  | .binary _ op _ _ => op.level.rank
  | .field .. | .invoke .. => .secondary
  | _ => .primary

theorem Operator.rank_tightness (op : Operator) :
    op.level.rank.tightness < Grammar.Rank.secondary.tightness ∧
      op.level.operandRank.tightness = op.level.rank.tightness + 1 := by
  cases op <;> decide

/-- Only a binary expression is held together less tightly than a receiver. -/
theorem Expr.secondary_le_rank {e : Expr α} :
    Grammar.Rank.secondary.tightness ≤ e.rank.tightness ↔ e.isBinary = false := by
  cases e with
  | binary tag op l r =>
      refine iff_of_false (fun h => ?_) nofun
      exact Nat.not_le_of_lt op.rank_tightness.1 h
  | field | invoke => exact iff_of_true (Nat.le_refl _) rfl
  | _ => exact iff_of_true (Nat.le_succ _) rfl

mutual

def Expr.wellFormed : Expr α → Bool
  | .nil _ | .boolean _ _ | .string _ _ => true
  | .character _ s => s.toList.length = 1
  | .integer _ n => (Nat.repr n.natAbs).length ≤ maxDigits
  | .decimal _ d => d.exponent ≤ -1
  | .group _ e => e.isBinary && e.wellFormed
  | .binary _ op l r =>
    op.level.rank.tightness ≤ l.rank.tightness && op.level.rank.tightness < r.rank.tightness &&
      l.wellFormed && r.wellFormed
  | .var _ x => isNameText x
  | .field _ e x => !e.isBinary && e.wellFormed && isNameText x
  | .call _ f es => isNameText f && Expr.allWellFormed es
  | .invoke _ e f es => !e.isBinary && e.wellFormed && isNameText f && Expr.allWellFormed es

def Expr.allWellFormed : List (Expr α) → Bool
  | [] => true
  | e :: es => e.wellFormed && Expr.allWellFormed es

end

mutual

def Stmt.wellFormed : Stmt α → Bool
  | .expr _ e | .ret _ e => e.wellFormed
  | .declare _ x type e => isNameText x && type.all isNameText && e.all Expr.wellFormed
  | .assign _ target e => target.wellFormed && e.wellFormed
  | .branch _ c thenBody elseBody =>
    c.wellFormed && Stmt.allWellFormed thenBody && Stmt.allWellFormed elseBody
  | .forIn _ x e body => isNameText x && e.wellFormed && Stmt.allWellFormed body
  | .loop _ c body => c.wellFormed && Stmt.allWellFormed body

def Stmt.allWellFormed : List (Stmt α) → Bool
  | [] => true
  | s :: ss => s.wellFormed && Stmt.allWellFormed ss

end

def Field.wellFormed (f : Field α) : Bool :=
  isNameText f.name && f.typeName.all isNameText && f.value.all Expr.wellFormed

/-- Every parameter has a type, and only parameters have one. -/
def Method.wellFormed (d : Method α) : Bool :=
  isNameText d.name && d.parameters.length = d.parameterTypes.length &&
    d.parameters.all isNameText && d.parameterTypes.all isNameText &&
    d.returnType.all isNameText && Stmt.allWellFormed d.body

def Program.wellFormed (p : Program α) : Bool :=
  p.fields.all Field.wellFormed && p.methods.all Method.wellFormed

/-! ## Words of a tree

The words follow the grammar, symbol by symbol, and no parentheses are added. -/

/-- A character between quotes, as an escape if it has to be one. -/
def escaped (c : Char) : List Char :=
  if c = '\'' || c = '"' || c = '\\' then ['\\', c]
  else if c = '\n' then ['\\', 'n']
  else if c = '\r' then ['\\', 'r']
  else [c]

/-- A text between quotes. -/
def quotedWith (quote : Char) (s : String) : String :=
  String.ofList (quote :: (s.toList.flatMap escaped ++ [quote]))

namespace Word

/-- A reserved word or a mark. -/
def fixed (text : String) : Word :=
  ⟨if keywords.contains text then .identifier else .operator, text⟩

def named (x : String) : Word := ⟨.identifier, x⟩

/-- The type that may follow a name. -/
def typed : Option String → List Word
  | none => []
  | some type => [fixed ":", named type]

/-- Parts with commas between them. -/
def commas {β : Type} (words : β → List Word) : List β → List Word
  | [] => []
  | b :: bs => words b ++ bs.flatMap fun b => fixed "," :: words b

end Word

open Word

mutual

/-- The words of an expression. -/
def Expr.words : Expr α → List Word
  | .nil _ => [fixed "NIL"]
  | .boolean _ b => [fixed (if b then "TRUE" else "FALSE")]
  | .character _ s => [⟨.character, quotedWith '\'' s⟩]
  | .string _ s => [⟨.string, quotedWith '"' s⟩]
  | .integer _ n => [⟨.integer, Numeral.text n⟩]
  | .decimal _ d => [⟨.decimal, d.plain⟩]
  | .group _ e => fixed "(" :: (e.words ++ [fixed ")"])
  | .binary _ op l r => l.words ++ fixed op.lexeme :: r.words
  | .var _ x => [named x]
  | .field _ e x => e.words ++ [fixed ".", named x]
  | .call _ f es => named f :: fixed "(" :: (Expr.argumentWords es ++ [fixed ")"])
  | .invoke _ e f es =>
    e.words ++ fixed "." :: named f :: fixed "(" :: (Expr.argumentWords es ++ [fixed ")"])

/-- The words of arguments, with commas between. -/
def Expr.argumentWords : List (Expr α) → List Word
  | [] => []
  | e :: es => e.words ++ Expr.moreWords es

/-- The words of further arguments, each after a comma. -/
def Expr.moreWords : List (Expr α) → List Word
  | [] => []
  | e :: es => fixed "," :: (e.words ++ Expr.moreWords es)

end

/-- The words of a value that may be given. -/
def Expr.initialWords : Option (Expr α) → List Word
  | none => []
  | some e => fixed "=" :: e.words

/-- The words of a declaration, after `LET`. -/
def declarationWords (x : String) (type : Option String) (e : Option (Expr α)) : List Word :=
  named x :: (typed type ++ (Expr.initialWords e ++ [fixed ";"]))

mutual

/-- The words of a statement. -/
def Stmt.words : Stmt α → List Word
  | .expr _ e => e.words ++ [fixed ";"]
  | .declare _ x type e => fixed "LET" :: declarationWords x type e
  | .assign _ target e => target.words ++ fixed "=" :: (e.words ++ [fixed ";"])
  | .branch _ c thenBody elseBody =>
    fixed "IF" :: (c.words ++ fixed "DO" :: (Stmt.allWords thenBody ++
      ((if elseBody.isEmpty then [] else fixed "ELSE" :: Stmt.allWords elseBody) ++
        [fixed "END"])))
  | .forIn _ x e body =>
    fixed "FOR" :: named x :: fixed "IN" :: (e.words ++ fixed "DO" ::
      (Stmt.allWords body ++ [fixed "END"]))
  | .loop _ c body =>
    fixed "WHILE" :: (c.words ++ fixed "DO" :: (Stmt.allWords body ++ [fixed "END"]))
  | .ret _ e => fixed "RETURN" :: (e.words ++ [fixed ";"])

def Stmt.allWords : List (Stmt α) → List Word
  | [] => []
  | s :: ss => s.words ++ Stmt.allWords ss

end

def Field.words (f : Field α) : List Word :=
  fixed "LET" :: declarationWords f.name f.typeName f.value

/-- The words of a parameter and its type. -/
def parameterWords (p : String × String) : List Word := [named p.1, fixed ":", named p.2]

def Method.words (d : Method α) : List Word :=
  fixed "DEF" :: named d.name :: fixed "(" ::
    (commas parameterWords (d.parameters.zip d.parameterTypes) ++ fixed ")" ::
      (typed d.returnType ++ fixed "DO" :: (Stmt.allWords d.body ++ [fixed "END"])))

/-- The words of a program. -/
def Program.words (p : Program α) : List Word :=
  p.fields.flatMap Field.words ++ p.methods.flatMap Method.words

/-- A program as a text. -/
def Program.text (p : Program α) : String := Word.spaced p.words

theorem Expr.moreWords_eq (es : List (Expr α)) :
    Expr.moreWords es = es.flatMap fun e => fixed "," :: e.words := by
  induction es with
  | nil => rfl
  | cons e es ih => rw [Expr.moreWords, ih, List.flatMap_cons, List.cons_append]

theorem Expr.argumentWords_eq (es : List (Expr α)) :
    Expr.argumentWords es = commas Expr.words es := by
  cases es with
  | nil => rfl
  | cons e es => rw [Expr.argumentWords, Expr.moreWords_eq, commas]

theorem Stmt.allWords_eq (ss : List (Stmt α)) : Stmt.allWords ss = ss.flatMap Stmt.words := by
  induction ss with
  | nil => rfl
  | cons s ss ih => rw [Stmt.allWords, ih, List.flatMap_cons]

end QuillLang
