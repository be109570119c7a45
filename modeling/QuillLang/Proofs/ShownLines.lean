/-
# Faults are shown on their line

A fault shows the line that it is on, and below it a caret at its column.  The
reader of tokens looks for line feeds around the fault; all others take the line
of the right number out of all lines, and know more kinds of breaks.  In a text in
which no other character breaks lines the two agree (`sourceLine?_eq_around`),
wherever a fault can be: at a token, after the last one, or at the start of a text
that has no tokens.

So the line of every fault in the tokens, in their order and in the checks of a
tree that they are read as is the text between two line feeds around it, and the
caret stands below the character that the fault is at (`Source.faults_show_lines`).
-/
import QuillLang.Proofs.Positions
import QuillLang.Proofs.StoppedChecks
import QuillLang.Proofs.TreePlaces
import QuillLang.Session

namespace QuillLang

/-! ## Lines between line feeds

Splitting a text into lines is followed from its front.  A line is found by counting the line feeds
before it, as long as nothing else breaks lines. -/

namespace Lines

/-- Only line feeds break lines. -/
def OnlyFeeds (cs : List Char) : Prop := ∀ c ∈ cs, isBreak c = true → c = '\n'

theorem OnlyFeeds.tail {c : Char} {cs : List Char} (h : OnlyFeeds (c :: cs)) : OnlyFeeds cs :=
  fun d hd => h d (List.mem_cons_of_mem _ hd)

theorem OnlyFeeds.isBreak_eq_false {cs : List Char} (h : OnlyFeeds cs) {c : Char} (hc : c ∈ cs)
    (hne : c ≠ '\n') : isBreak c = false :=
  Bool.eq_false_iff.mpr fun hbreak => hne (h c hc hbreak)

theorem split_feed (cs : List Char) : split ('\n' :: cs) = [] :: split cs := rfl

theorem split_cons {c : Char} (hc : isBreak c = false) (cs : List Char) :
    split (c :: cs) = push c (split cs) := by
  rw [split.eq_def]
  split
  · next h => cases h
  · next h =>
      cases h
      cases hc
  · next h =>
      cases h
      exact if_neg (by rw [hc]; exact Bool.false_ne_true)

theorem push_append {c : Char} {lines : List (List Char)} (h : lines ≠ [])
    (rest : List (List Char)) : push c (lines ++ rest) = push c lines ++ rest := by
  cases lines with
  | nil => exact absurd rfl h
  | cons line lines => rfl

theorem length_push {c : Char} {lines : List (List Char)} (h : lines ≠ []) :
    (push c lines).length = lines.length := by
  cases lines with
  | nil => exact absurd rfl h
  | cons line lines => rfl

/-- A text up to a line feed has as many lines as line feeds, and the rest has lines of its own. -/
theorem split_append_feed {before : List Char} (h : OnlyFeeds before) (rest : List Char) :
    split (before ++ '\n' :: rest) = split (before ++ ['\n']) ++ split rest ∧
      (split (before ++ ['\n'])).length = before.count '\n' + 1 := by
  induction before with
  | nil => exact ⟨split_feed rest, rfl⟩
  | cons c before ih =>
      obtain ⟨hsplit, hlength⟩ := ih h.tail
      by_cases hc : c = '\n'
      · subst hc
        rw [List.cons_append, List.cons_append, split_feed, split_feed, hsplit,
          List.count_cons_self]
        exact ⟨rfl, congrArg (· + 1) hlength⟩
      · have hbreak := h.isBreak_eq_false List.mem_cons_self hc
        have hne : split (before ++ ['\n']) ≠ [] := List.ne_nil_of_length_pos (by omega)
        rw [List.cons_append, List.cons_append, split_cons hbreak, split_cons hbreak, hsplit,
          push_append hne, length_push hne, hlength, List.count_cons_of_ne hc]
        exact ⟨rfl, rfl⟩

/-- The first line of a text goes up to the first line feed. -/
theorem head?_split {line after : List Char} (hline : ∀ c ∈ line, isBreak c = false)
    (hafter : after = [] ∨ after.head? = some '\n') (hne : line ++ after ≠ []) :
    (split (line ++ after)).head? = some line := by
  induction line with
  | nil =>
      cases after with
      | nil => exact absurd rfl hne
      | cons c after =>
          rcases hafter with hnil | hhead
          · cases hnil
          · cases hhead
            rw [List.nil_append, split_feed]
            rfl
  | cons c line ih =>
      obtain ⟨hc, hline⟩ := List.forall_mem_cons.mp hline
      rw [List.cons_append, split_cons hc]
      by_cases hrest : line ++ after = []
      · rw [hrest, (List.append_eq_nil_iff.mp hrest).1]
        rfl
      · have hhead := ih hline hrest
        cases hsplit : split (line ++ after) with
        | nil => rw [hsplit] at hhead; cases hhead
        | cons first lines =>
            rw [hsplit] at hhead
            cases hhead
            rfl

/-- A line of a text has the number of line feeds before it plus one. -/
theorem nth?_split {before line after : List Char} (h : OnlyFeeds (before ++ (line ++ after)))
    (hline : '\n' ∉ line) (hbefore : before = [] ∨ before.getLast? = some '\n')
    (hafter : after = [] ∨ after.head? = some '\n') (hne : line ++ after ≠ []) :
    nth? (split (before ++ (line ++ after))) (before.count '\n' + 1) = some line := by
  have hbreaks : ∀ c ∈ line, isBreak c = false := by
    intro c hc
    refine h.isBreak_eq_false ?_ fun heq => hline (heq ▸ hc)
    exact List.mem_append_right _ (List.mem_append_left _ hc)
  have hhead := head?_split hbreaks hafter hne
  have hnumber : (1 : Int) ≤ before.count '\n' + 1 := by omega
  rw [nth?, if_pos hnumber, Int.add_sub_cancel, Int.toNat_natCast]
  rcases hbefore with rfl | hlast
  · rw [List.nil_append, List.count_nil, ← List.head?_eq_getElem?, hhead]
  · obtain ⟨front, rfl⟩ := List.getLast?_eq_some_iff.mp hlast
    have hfront : OnlyFeeds front := fun c hc =>
      h c (List.mem_append_left _ (List.mem_append_left _ hc))
    obtain ⟨hsplit, hlength⟩ := split_append_feed hfront (line ++ after)
    have hcount : (front ++ ['\n']).count '\n' = (split (front ++ ['\n'])).length := by
      rw [hlength, List.count_append]
      rfl
    rw [List.append_assoc, List.singleton_append, hsplit, hcount, List.getElem?_append_right
      (Nat.le_refl _), Nat.sub_self, ← List.head?_eq_getElem?, hhead]

/-- The text between the last line feed before an offset and the first one at or after it. -/
def around (source : List Char) (offset : Nat) : List Char :=
  ((source.take offset).reverse.takeWhile (· ≠ '\n')).reverse ++
    (source.drop offset).takeWhile (· ≠ '\n')

/-- A text taken apart at an offset: the lines before, the part of the line before the offset, the
part after it, and the lines after. -/
theorem exists_around (front rest : List Char) : ∃ before left right after,
    front = before ++ left ∧ rest = right ++ after ∧ '\n' ∉ left ++ right ∧
    (before = [] ∨ before.getLast? = some '\n') ∧ (after = [] ∨ after.head? = some '\n') ∧
    (front.reverse.takeWhile (· ≠ '\n')).length = left.length ∧
    around (front ++ rest) front.length = left ++ right := by
  have hstop : ∀ cs : List Char,
      cs.dropWhile (· ≠ '\n') = [] ∨ (cs.dropWhile (· ≠ '\n')).head? = some '\n' := by
    intro cs
    have hhead := List.head?_dropWhile_not (fun c => decide (c ≠ '\n')) cs
    cases hdrop : cs.dropWhile (· ≠ '\n') with
    | nil => exact .inl rfl
    | cons c ds =>
        rw [hdrop] at hhead
        exact .inr (congrArg some (by simpa using hhead))
  have hnewline : ∀ cs : List Char, '\n' ∉ cs.takeWhile (· ≠ '\n') := by
    intro cs hmem
    have hne := List.mem_takeWhile_imp hmem
    exact of_decide_eq_true hne rfl
  refine ⟨(front.reverse.dropWhile (· ≠ '\n')).reverse,
    (front.reverse.takeWhile (· ≠ '\n')).reverse, rest.takeWhile (· ≠ '\n'),
    rest.dropWhile (· ≠ '\n'), ?_, ?_, ?_, ?_, hstop rest, ?_, ?_⟩
  · rw [← List.reverse_append, List.takeWhile_append_dropWhile, List.reverse_reverse]
  · rw [List.takeWhile_append_dropWhile]
  · rw [List.mem_append, List.mem_reverse]
    exact not_or.mpr ⟨hnewline _, hnewline _⟩
  · rw [List.reverse_eq_nil_iff, List.getLast?_reverse]
    exact hstop _
  · rw [List.length_reverse]
  · rw [around, List.take_left, List.drop_left]

end Lines

/-! ## The line of a location

A location is given by what is before it, and this is cut after its last line feed. -/

/-- The line that a location is on: it goes from after the last line feed before the location up to
the first one at or after it, and the column of the location is counted from its start. -/
structure Location.OnLine (p : Location) (source line : List Char) : Prop where
  newline : '\n' ∉ line
  column : 1 ≤ p.column ∧ p.column ≤ line.length + 1
  stretch : ∃ before after, source = before ++ (line ++ after) ∧
    (before = [] ∨ before.getLast? = some '\n') ∧ (after = [] ∨ after.head? = some '\n') ∧
    p.offset = before.length + (p.column - 1)

/-- The text between the line feeds around an offset is the line it is on. -/
theorem Location.onLine_around (front rest : List Char) (file : Option String) :
    (ofOffset (front ++ rest) front.length file).OnLine (front ++ rest)
      (Lines.around (front ++ rest) front.length) := by
  obtain ⟨before, left, right, after, hfront, hrest, hnewline, hbefore, hafter, hcolumn, haround⟩ :=
    Lines.exists_around front rest
  rw [haround, ofOffset_append, ofOffset_length, hcolumn]
  refine ⟨hnewline, ?_, before, after, ?_, hbefore, hafter, ?_⟩
  · show 1 ≤ (left.length : Int) + 1 ∧ (left.length : Int) + 1 ≤ (left ++ right).length + 1
    rw [List.length_append]
    omega
  · rw [hfront, hrest]
    simp only [List.append_assoc]
  · show (front.length : Int) = before.length + ((left.length : Int) + 1 - 1)
    rw [hfront, List.length_append]
    omega

/-! ## The line of a cursor

A cursor keeps the start of its line while it goes along.  What is found from there on is again the
text between line feeds, since the last line feed that was passed is the last one before it. -/

/-- Within a line its start stays. -/
theorem Cursor.lineStart_of_line {cs : List Char} (h : '\n' ∉ cs) (k : Cursor) :
    (k.advanceAll cs).lineStart = k.lineStart := by
  induction cs generalizing k with
  | nil => rfl
  | cons c cs ih =>
      obtain ⟨hc, hcs⟩ := not_or.mp fun hmem => h (List.mem_cons.mpr hmem)
      exact (ih hcs (k.advance c)).trans (if_neg (Ne.symm hc))

/-- The line of a cursor starts after the last line feed that it has passed. -/
theorem Cursor.lineStart_start {before left : List Char}
    (hbefore : before = [] ∨ before.getLast? = some '\n') (hleft : '\n' ∉ left)
    (file : Option String) :
    ((start file).advanceAll (before ++ left)).lineStart = before.length := by
  rw [advanceAll_append, lineStart_of_line hleft]
  rcases hbefore with rfl | hlast
  · rfl
  · obtain ⟨lines, rfl⟩ := List.getLast?_eq_some_iff.mp hlast
    have hstart : ((start file).advanceAll (lines ++ ['\n'])).lineStart =
        ((start file).advanceAll (lines ++ ['\n'])).location.offset.toNat := by
      rw [advanceAll_append]
      rfl
    rw [hstart, location_start (List.append_nil _).symm, Location.ofOffset_length]
    rfl

/-- What is shown from the start of the line on is the text between line feeds. -/
theorem Lines.lineFrom_eq_around (front rest : List Char) (file : Option String) :
    lineFrom (front ++ rest) ((Cursor.start file).advanceAll front).lineStart =
      around (front ++ rest) front.length := by
  obtain ⟨before, left, right, after, rfl, rfl, hnewline, hbefore, hafter, -, haround⟩ :=
    exists_around front rest
  have hleft : '\n' ∉ left := fun hmem => hnewline (List.mem_append_left _ hmem)
  rw [haround, Cursor.lineStart_start hbefore hleft, lineFrom, List.append_assoc, List.drop_left,
    ← List.append_assoc]
  have hall : ∀ c ∈ left ++ right, decide (c ≠ '\n') = true :=
    fun c hc => decide_eq_true fun heq => hnewline (heq ▸ hc)
  rw [List.takeWhile_append_of_pos hall]
  rcases hafter with rfl | hhead
  · exact List.append_nil _
  · obtain ⟨c, cs, rfl⟩ := List.head?_eq_some_iff.mp hhead
    rw [List.takeWhile_cons_of_neg (by simp), List.append_nil]

/-- A location that a line of its number exists for: something follows it, or it does not follow a
line feed. -/
def Location.HasLine (p : Location) (source : List Char) (file : Option String) : Prop :=
  ∃ front rest, source = front ++ rest ∧ p = ofOffset source front.length file ∧
    (rest ≠ [] ∨ front ≠ [] ∧ front.getLast? ≠ some '\n')

/-- Where only line feeds break lines, the line of a number is the text between line feeds. -/
theorem sourceLine?_eq_around {source : String} {front rest : List Char} {file : Option String}
    (hsource : source.toList = front ++ rest) (hfeeds : Lines.OnlyFeeds source.toList)
    (hline : rest ≠ [] ∨ front ≠ [] ∧ front.getLast? ≠ some '\n') :
    sourceLine? source (.ofOffset source.toList front.length file) =
      some (String.ofList (Lines.around source.toList front.length)) := by
  obtain ⟨before, left, right, after, hfront, hrest, hnewline, hbefore, hafter, -, haround⟩ :=
    Lines.exists_around front rest
  have hsplit : source.toList = before ++ ((left ++ right) ++ after) := by
    rw [hsource, hfront, hrest]
    simp only [List.append_assoc]
  have hne : (left ++ right) ++ after ≠ [] := by
    intro hnil
    simp only [List.append_eq_nil_iff] at hnil
    obtain ⟨⟨rfl, rfl⟩, rfl⟩ := hnil
    rw [List.append_nil] at hfront
    subst hfront
    rcases hline with hline | ⟨hne, hlast⟩
    · exact hline hrest
    · exact hbefore.elim hne hlast
  have hnumber : (Location.ofOffset source.toList front.length file).line =
      before.count '\n' + 1 := by
    have hleft : left.count '\n' = 0 :=
      List.count_eq_zero_of_not_mem fun hmem => hnewline (List.mem_append_left _ hmem)
    rw [hsource, Location.ofOffset_append, Location.ofOffset_length, hfront, List.count_append,
      hleft]
    rfl
  rw [sourceLine?, hnumber, hsource, haround, ← hsource, hsplit,
    Lines.nth?_split (hsplit ▸ hfeeds) hnewline hbefore hafter hne]
  rfl

/-! ## Where faults are

There is a line for every place but the end of a text that is empty or ends with a line feed.  No
token stands there, and the tokens end with the last of them, or at the start of the text if there
are none. -/

theorem Token.StandsIn.hasLine {t : Token} {source : List Char} {file : Option String}
    (h : t.StandsIn source file) : t.location.HasLine source file := by
  obtain ⟨before, rest, hsource, hlocation⟩ := h.stretch
  refine ⟨before, t.lexeme.toList ++ rest, hsource, hlocation, .inl ?_⟩
  obtain ⟨c, cs, hlexeme, -⟩ := h.lexical.exists_cons
  rw [hlexeme]
  exact List.cons_ne_nil _ _

/-- The end of the tokens of a text is on a line of it. -/
theorem endLocation_hasLine {source : String} {file : Option String} {ts : List Token}
    (h : ∀ t ∈ ts, t.StandsIn source.toList file) (hne : source ≠ "") :
    (endLocation ts source file).HasLine source.toList file := by
  have hnonempty : source.toList ≠ [] := by simpa using hne
  unfold endLocation
  split
  · refine ⟨[], source.toList, rfl, ?_, .inl hnonempty⟩
    simp [Location.ofOffset, Location.start]
  · next t ht =>
      have ht := h t (List.mem_of_getLast? ht)
      rw [if_neg (by simpa using hne)]
      obtain ⟨before, rest, hsource, hlocation⟩ := ht.stretch
      obtain ⟨c, cs, hlexeme, -⟩ := ht.lexical.exists_cons
      have hlexeme : t.lexeme.toList ≠ [] := by simp [hlexeme]
      refine ⟨before ++ t.lexeme.toList, rest, ?_, ?_, .inr ⟨?_, ?_⟩⟩
      · rw [hsource, List.append_assoc]
      · rw [← Token.endOffset_eq (hsource ▸ hlocation)]
      · exact fun hnil => hlexeme (List.append_eq_nil_iff.mp hnil).2
      · rw [List.getLast?_append_of_ne_nil _ hlexeme]
        exact fun hlast => ht.lexical.newline_not_mem (List.mem_of_getLast? hlast)

/-! ## What a fault shows

The text of a fault has the line and below it a row of blanks with a caret, both behind the same
margin, so the caret is below the character of its column. -/

theorem WidthLimit.of?_eq_none {n : Int} (hn : 0 ≤ n) (hmax : n ≤ maxWidth) : of? n = none := by
  have hword : isMachineWord n = true := by
    unfold maxWidth at hmax
    unfold isMachineWord
    exact Bool.and_eq_true_iff.mpr ⟨decide_eq_true (by omega), decide_eq_true (by omega)⟩
  simp [of?, hword, Int.not_lt.mpr hmax]

namespace Fault

/-- The text of a fault ends in two rows: a line, indented by four blanks, and a caret behind so
many blanks that it stands below the character at a column of the line. -/
def PointsAt (f : Fault) (column : Int) (row : List Char) : Prop :=
  ∃ (head : List Char) (index : Nat), column = index + 1 ∧
    f.text.toList = head ++ '\n' :: ((List.replicate 4 ' ' ++ row) ++
      '\n' :: (List.replicate (4 + index) ' ' ++ ['^'])) ∧
    (List.replicate 4 ' ' ++ row)[4 + index]? = row[index]?

/-- A fault shows the line it is on, and points at its place there unless the line is empty.  There
is room for its text if there is room for the line. -/
def ShowsLine (f : Fault) (source : List Char) : Prop :=
  ∃ p line, f.location = some p ∧ p.OnLine source line ∧ f.sourceLine = some (String.ofList line) ∧
    (line ≠ [] → f.PointsAt p.column line) ∧ (4 + line.length ≤ maxWidth → f.widthLimit? = none)

variable {f : Fault} {p : Location} {source line : List Char}

theorem pointsAt_of_line (hp : f.location = some p)
    (hline : f.sourceLine = some (String.ofList line)) (hon : p.OnLine source line)
    (hne : line ≠ []) : f.PointsAt p.column line := by
  have hshown : nonempty? f.sourceLine = some (String.ofList line) := by
    rw [hline, nonempty?]
    simp [hne]
  obtain ⟨hcolumn, -⟩ := hon.column
  have hindex : (padding p.column).toNat = 4 + (p.column - 1).toNat := by
    rw [padding]
    omega
  refine ⟨("[" ++ p.text ++ "] " ++ f.headline).toList, (p.column - 1).toNat, by omega, ?_, ?_⟩
  · simp [text, hp, hshown, excerpt, hindex]
  · rw [List.getElem?_append_right (by simp), List.length_replicate, Nat.add_sub_cancel_left]

theorem widthLimit?_of_line (hp : f.location = some p) (hon : p.OnLine source line)
    (hroom : 4 + line.length ≤ maxWidth) : f.widthLimit? = none := by
  obtain ⟨hlow, hhigh⟩ := hon.column
  have hnone : WidthLimit.of? (padding p.column) = none := by
    unfold padding
    exact WidthLimit.of?_eq_none (by omega) (by omega)
  unfold widthLimit?
  rw [hp]
  split
  · next hsome _ =>
      cases hsome
      exact hnone
  · rfl

theorem showsLine (hp : f.location = some p) (hon : p.OnLine source line)
    (hline : f.sourceLine = some (String.ofList line)) : f.ShowsLine source :=
  ⟨p, line, hp, hon, hline, pointsAt_of_line hp hline hon, widthLimit?_of_line hp hon⟩

/-- A fault that shows the line of its number shows the line it is on. -/
theorem showsLine_of_hasLine {source : String} {file : Option String}
    (hfeeds : Lines.OnlyFeeds source.toList) (hp : f.location = some p)
    (hline : f.sourceLine = sourceLine? source p) (hhas : p.HasLine source.toList file) :
    f.ShowsLine source.toList := by
  obtain ⟨front, rest, hsource, rfl, hne⟩ := hhas
  refine showsLine hp ?_ (hline.trans (sourceLine?_eq_around hsource hfeeds hne))
  rw [hsource]
  exact Location.onLine_around front rest file

end Fault

/-! ## Pieces

A session checks pieces of trees, also several at once.  What stops such a check is at a node of
one of the pieces. -/

namespace Piece

/-- A piece as a node of a tree. -/
def node {α : Type} : Piece α → Node α
  | expr e => .expr e
  | stmt s => .stmt s
  | field f => .field f
  | method d => .method d

def nodesOf {α : Type} (qs : List (Piece α)) : List (Node α) := qs.flatMap (·.node.nodes)

theorem mark_marksOf (q : Piece Place) (n : Nat) :
    MarksOf q.node.nodes (q.mark n).1.node.nodes := by
  cases q with
  | expr e => exact e.mark_marksOf n
  | stmt s => exact s.mark_marksOf n
  | field f => exact .cons rfl rfl (Expr.mark?_marksOf f.value (n + 1))
  | method d => exact .cons rfl rfl (Stmt.markAll_marksOf d.body (n + 1))

theorem markAll_marksOf (qs : List (Piece Place)) (n : Nat) :
    MarksOf (nodesOf qs) (nodesOf (markAll qs n).1) := by
  induction qs generalizing n with
  | nil => exact .nil
  | cons q qs ih => exact .append (q.mark_marksOf n) (ih _)

end Piece

namespace Check

/-- A piece is refused at one of its nodes. -/
theorem place_of_piece {q : Piece Mark} {c d : Checker} {e : CheckError}
    (h : piece q c = .error (.error e) d) : ∃ y ∈ q.node.nodes, e.place = y.tag.place := by
  have hV : Downward fun _ x => x.nodes ⊆ q.node.nodes :=
    fun hx hy => List.Subset.trans hy.nodes_subset hx
  have hself := List.Subset.refl q.node.nodes
  have hstops : StopsAt (fun _ x => x.nodes ⊆ q.node.nodes) e := by
    cases q with
    | expr e =>
        rcases bind_eq_error.mp h with h | ⟨_, _, _, h⟩
        · exact expr_stops hV e hself h
        · cases h
    | stmt s => exact stmt_stops hV s hself h
    | field f => exact field_stops hV hself h
    | method d => exact method_stops hV hself h
  obtain ⟨_, x, hx, hraise⟩ := hstops
  obtain ⟨y, hy, hplace⟩ := hraise.exists_place
  exact ⟨y, hx hy, hplace⟩

theorem place_of_pieces {qs : List (Piece Mark)} {c d : Checker} {e : CheckError}
    (h : pieces qs c = .error (.error e) d) : ∃ y ∈ Piece.nodesOf qs, e.place = y.tag.place := by
  induction qs generalizing c with
  | nil => cases h
  | cons q qs ih =>
      rcases bind_eq_error.mp h with h | ⟨_, c₁, -, h⟩
      · obtain ⟨y, hy, hplace⟩ := place_of_piece h
        exact ⟨y, List.mem_append_left _ hy, hplace⟩
      · obtain ⟨y, hy, hplace⟩ := ih h
        exact ⟨y, List.mem_append_right _ hy, hplace⟩

theorem place_of_again {t : Expr Mark} {times : Nat} {c d : Checker} {e : CheckError}
    (h : again t times c = .error (.error e) d) : ∃ y ∈ t.nodes, e.place = y.tag.place := by
  have hexpr : ∀ {c d}, expr t c = .error (.error e) d → ∃ y ∈ t.nodes, e.place = y.tag.place :=
    fun h => place_of_piece (q := .expr t) (bind_eq_error.mpr (.inl h))
  induction times generalizing c with
  | zero => exact hexpr h
  | succ n ih =>
      rcases bind_eq_error.mp h with h | ⟨_, c₁, -, h⟩
      · exact hexpr h
      · exact ih h

end Check

theorem Checker.run_eq_error {α : Type} {c : Checker} {act : Check α} {e : CheckFailure} :
    (c.run act).1 = .error e ↔ ∃ d, act c = .error e d := by
  unfold run
  split
  · next hrun => simp [hrun]
  · next hrun => simp [hrun]

/-! ## Faults of the stages

Each stage has its own way to a fault, and in each the place is a token, the end of the tokens, or
a point that the reader of tokens had come to. -/

namespace Source

/-- The nodes of the trees that a source can be read as. -/
inductive Holds (s : Source) (x : Node Place) : Prop where
  | program {p : Program Place} : s.program = .ok p → x ∈ p.nodes → Holds s x
  | expression {e : Expr Place} {rest : List Token} : s.expression = .ok (e, rest) → x ∈ e.nodes →
      Holds s x
  | statements {ss : List (Stmt Place)} : s.statements = .ok ss → x ∈ Stmt.nodesOf ss → Holds s x

/-- The faults that a session finds in what is read from a source: in the program, in expressions,
which may be checked more than once, and in pieces. -/
inductive Finds (s : Source) (a : Session) (f : Fault) : Prop where
  | program {p : Program Place} : s.program = .ok p → (a.check p).1 = .error (.fault f) →
      Finds s a f
  | typeOf {e : Expr Place} {again : Nat} : (∀ x ∈ e.nodes, s.Holds x) →
      (a.typeOf e again).1 = .error (.fault f) → Finds s a f
  | pieces {qs : List (Piece Place)} : (∀ x ∈ Piece.nodesOf qs, s.Holds x) →
      (a.checkPieces qs).1 = .error (.fault f) → Finds s a f

/-- What is read stands at tokens of the text. -/
theorem Holds.standsAmong {s : Source} {x : Node Place} (h : s.Holds x) :
    ∃ ts, tokenize s.text s.file = .ok ts ∧ StandsAmong ts x.tag := by
  cases h with
  | program hp hx =>
      obtain ⟨ts, hts, hparse⟩ := parseWith_eq_ok hp
      exact ⟨ts, hts, parseProgram_places (tokenize_plain hts) hparse x hx⟩
  | expression he hx =>
      obtain ⟨ts, hts, hparse⟩ := parseWith_eq_ok he
      exact ⟨ts, hts, parseExpression_places (tokenize_plain hts) hparse x hx⟩
  | statements hss hx =>
      obtain ⟨ts, hts, hparse⟩ := parseWith_eq_ok hss
      exact ⟨ts, hts, parseStatements_places (tokenize_plain hts) hparse x hx⟩

theorem showsLine_of_tokens {s : Source} {f : Fault} (h : s.tokens = .error (.fault f)) :
    f.ShowsLine s.text.toList := by
  unfold tokens at h
  cases hts : tokenize s.text s.file with
  | ok ts =>
      rw [hts] at h
      cases h
  | error e =>
      rw [hts] at h
      cases h
      obtain ⟨front, rest, hsource, hcursor⟩ := ScanError.exists_cursor hts
      refine Fault.showsLine (p := e.location) rfl ?_ rfl
      rw [hcursor, Cursor.location_start hsource, hsource, Lines.lineFrom_eq_around]
      exact Location.onLine_around front rest s.file

section

variable {s : Source} (hfeeds : Lines.OnlyFeeds s.text.toList)
include hfeeds

theorem showsLine_of_parseWith (hkept : s.kept = true) (hne : s.text ≠ "") {α : Type}
    {parse : List Token → Except ParseFailure α}
    (hparse : ∀ (P : TokenClass) ts, P.All ts → Blames P (parse ts)) {f : Fault}
    (h : s.parseWith parse = .error (.fault f)) : f.ShowsLine s.text.toList := by
  rcases fault_of_parseWith hparse h with hf | ⟨ts, e, hts, hrest, rfl⟩
  · exact showsLine_of_tokens hf
  have hshown : s.shown = s.text := if_pos hkept
  have hstands := standsIn_of_tokenize hts
  have hline : (e.location ts s.text s.file).HasLine s.text.toList s.file := by
    rw [ParseError.location]
    split
    · next t _ hcons => exact (hstands t (hrest t (by simp [hcons]))).hasLine
    · exact endLocation_hasLine hstands hne
  rw [hshown]
  exact Fault.showsLine_of_hasLine hfeeds rfl rfl hline

/-- An error at a token shows the line of the token. -/
theorem showsLine_of_standsAmong {ts : List Token} (hts : tokenize s.text s.file = .ok ts)
    {e : CheckError} (he : StandsAmong ts e.place) : (e.fault s.text).ShowsLine s.text.toList := by
  obtain ⟨t, ht, hplace⟩ := he
  have hline : (e.fault s.text).sourceLine = sourceLine? s.text t.location := by
    show e.place.bind _ = _
    rw [hplace]
    rfl
  exact Fault.showsLine_of_hasLine hfeeds hplace hline (standsIn_of_tokenize hts t ht).hasLine

/-- An error at a node of a numbered tree that is read. -/
theorem showsLine_of_node {ns : List (Node Place)} {ms : List (Node Mark)}
    (hns : ∀ x ∈ ns, s.Holds x) (hmarks : MarksOf ns ms) {e : CheckError}
    (h : ∃ y ∈ ms, e.place = y.tag.place) : (e.fault s.text).ShowsLine s.text.toList := by
  obtain ⟨y, hy, hplace⟩ := h
  obtain ⟨x, hx, hxy⟩ := hmarks y hy
  obtain ⟨ts, hts, hstands⟩ := (hns x hx).standsAmong
  refine showsLine_of_standsAmong hfeeds hts ?_
  rw [hplace, hxy.place]
  exact hstands

/-- An error at some place of a program that is read. -/
theorem showsLine_of_check {p : Program Place} (hp : s.program = .ok p) {c : Checker} {n : Nat}
    {e : CheckError} (h : (c.check (p.mark n).1).1 = .error (.error e)) (hplace : e.place ≠ none) :
    (e.fault s.text).ShowsLine s.text.toList := by
  rcases Checker.place_of_check h with hnone | htag | hnode
  · exact absurd hnone hplace
  · obtain ⟨ts, hts, hparse⟩ := parseWith_eq_ok hp
    refine showsLine_of_standsAmong hfeeds hts ?_
    rw [htag, show (p.mark n).1.tag.place = p.tag from rfl, parseProgram_tag hparse] at hplace ⊢
    cases ts with
    | nil => exact absurd rfl hplace
    | cons t ts => exact ⟨t, List.mem_cons_self, rfl⟩
  · exact showsLine_of_node hfeeds (fun x => .program hp) (p.mark_marksOf n) hnode

theorem Finds.showsLine {a : Session} (ha : a.text = s.text) {f : Fault} (h : s.Finds a f)
    (hplace : f.location ≠ none) : f.ShowsLine s.text.toList := by
  cases h with
  | program hp h =>
      obtain ⟨e, he, rfl⟩ := CheckFailure.mapError_eq_fault h
      rw [ha]
      exact showsLine_of_check hfeeds hp he hplace
  | typeOf hnodes h =>
      obtain ⟨e, he, rfl⟩ := CheckFailure.mapError_eq_fault h
      obtain ⟨d, he⟩ := Checker.run_eq_error.mp he
      rw [ha]
      exact showsLine_of_node hfeeds hnodes (Expr.mark_marksOf _ _) (Check.place_of_again he)
  | pieces hnodes h =>
      obtain ⟨e, he, rfl⟩ := CheckFailure.mapError_eq_fault h
      obtain ⟨d, he⟩ := Checker.run_eq_error.mp he
      rw [ha]
      exact showsLine_of_node hfeeds hnodes (Piece.markAll_marksOf _ _) (Check.place_of_pieces he)

end

/-- In a text that is not empty and in which only line feeds break lines: the faults of its tokens,
the faults of reading them, with the text at hand, and the faults that have a place of the checks
of what is read show the line they are on, between the line feeds around them, and point at the
character they are at. -/
theorem faults_show_lines {s : Source} (hkept : s.kept = true) (hne : s.text ≠ "")
    (hfeeds : Lines.OnlyFeeds s.text.toList) :
    (∀ f, s.tokens = .error (.fault f) ∨ s.program = .error (.fault f) ∨
        s.expression = .error (.fault f) ∨ s.statements = .error (.fault f) →
      f.ShowsLine s.text.toList) ∧
    (∀ (o : Embedding) (f : Fault), s.check o = .error (.fault f) → f.location ≠ none →
      f.ShowsLine s.text.toList) ∧
    ∀ (a : Session) (f : Fault), a.text = s.text → s.Finds a f → f.location ≠ none →
      f.ShowsLine s.text.toList := by
  have hprogram : ∀ f, s.program = .error (.fault f) → f.ShowsLine s.text.toList :=
    fun f h => showsLine_of_parseWith hfeeds hkept hne (fun P ts hts => blames_program hts) h
  refine ⟨?_, ?_, fun a f ha hf => hf.showsLine hfeeds ha⟩
  · rintro f (h | h | h | h)
    · exact showsLine_of_tokens h
    · exact hprogram f h
    · exact showsLine_of_parseWith hfeeds hkept hne
        (fun P ts hts => (Gives.expression hts).blames) h
    · exact showsLine_of_parseWith hfeeds hkept hne (fun P ts hts => blames_statements hts) h
  · intro o f h hplace
    cases hp : s.program with
    | error failure =>
        rw [check, hp] at h
        cases h
        exact hprogram f hp
    | ok p =>
        rw [check, hp] at h
        obtain ⟨e, he, rfl⟩ := CheckFailure.mapError_eq_fault h
        exact showsLine_of_check hfeeds hp he hplace

/-- A name that is not defined, on the second of three lines. -/
def undefinedBelow : Source := { text := "DEF main(): Integer DO\n  RETURN y;\nEND\n" }

theorem undefinedBelow_shown : undefinedBelow.kept = true ∧ undefinedBelow.text ≠ "" ∧
    Lines.OnlyFeeds undefinedBelow.text.toList ∧
    ∃ f, undefinedBelow.check {} = .error (.fault f) ∧
      (f.location, f.sourceLine) = (some ⟨2, 10, 32, none⟩, some "  RETURN y;") ∧
      f.ShowsLine undefinedBelow.text.toList := by
  have hkept : undefinedBelow.kept = true := rfl
  have hne : undefinedBelow.text ≠ "" := by decide
  have hfeeds : Lines.OnlyFeeds undefinedBelow.text.toList := by
    intro c hc hbreak
    have hall : (undefinedBelow.text.toList.all fun c => !Lines.isBreak c || c == '\n') = true := by
      decide +kernel
    have hc := List.all_eq_true.mp hall c hc
    rw [hbreak] at hc
    exact beq_iff_eq.mp hc
  obtain ⟨f, hf, hshown⟩ := exists_fault_of_map (r := undefinedBelow.check {})
    (g := fun f => (f.location, f.sourceLine))
    (b := (some ⟨2, 10, 32, none⟩, some "  RETURN y;")) (by decide +kernel)
  refine ⟨hkept, hne, hfeeds, f, hf, hshown, ?_⟩
  refine (faults_show_lines hkept hne hfeeds).2.1 {} f hf fun hnone => ?_
  rw [hnone] at hshown
  cases hshown

end Source

end QuillLang
