/-
# Sessions of the language server

A session is a list of messages, the latest first.  What it leaves the server
with can be told from the messages and the texts that were current when they
came: for every name of a document, the last message that opened, changed, saved
or closed it says whether there is an analysis, and of which text (`lastSync`).
The cache, the notices that were published last and the answers to requests all
follow it (`Server.serve_in_step`).

The texts are those of the workspace, of which one thing is assumed: asked for a
document, it gives the text that is current (`Current`).  That is all that is
needed, also for a document that is changed or saved after it was closed.

What one message does is said once for the document that it is about and once
for all others; a session is then an induction.
-/
import QuillLang.Editor.Server
import QuillLang.Proofs.Documents

namespace QuillLang

namespace Editor

/-! ## Values by name

What a list of values by name has for a name, after one has been put in or taken out. -/

namespace ByUri

variable {α : Type} (xs : ByUri α) (uri : String)

theorem lookup_cons (a : α) (other : String) :
    ((uri, a) :: xs).lookup other = if other = uri then some a else xs.lookup other := by
  by_cases h : other = uri
  · simp [h]
  · have hbeq : (other == uri) = false := beq_false_of_ne h
    simp [List.lookup_cons, hbeq, h]

theorem lookup_erase (other : String) :
    (xs.erase uri).lookup other = if other = uri then none else xs.lookup other := by
  induction xs with
  | nil => simp [erase]
  | cons x xs ih =>
      obtain ⟨name, a⟩ := x
      unfold erase at ih ⊢
      by_cases hname : name = uri
      · subst hname
        rw [List.filter_cons_of_neg (by simp), ih, lookup_cons]
        split <;> rfl
      · rw [List.filter_cons_of_pos (by simpa using hname), lookup_cons, lookup_cons, ih]
        by_cases hother : other = name
        · rw [if_pos hother, if_neg fun heq => hname (hother.symm.trans heq)]
          exact (if_pos hother).symm
        · rw [if_neg hother, if_neg hother]

theorem lookup_insert (a : α) (other : String) :
    (xs.insert uri a).lookup other = if other = uri then some a else xs.lookup other := by
  rw [insert, lookup_cons, lookup_erase]
  split <;> rfl

end ByUri

/-! ## What messages are about

How a document was synchronized last is defined on messages and current texts alone, without the
server. -/

namespace Message

/-- The document that a message is about. -/
def uri? : Message → Option String
  | greet | greeted | shutdown => none
  | opened uri _ | changed uri | saved uri | closed uri | hover uri _ | symbols uri => some uri

/-- The document that a message asks to analyse, and its text; `current` are the texts of all
documents when the message comes. -/
def analysed? (current : String → String) : Message → Option (String × String)
  | opened uri text => some (uri, text)
  | changed uri | saved uri => some (uri, current uri)
  | _ => none

end Message

/-- How a document was synchronized. -/
inductive Sync where
  | analysed (text : String)
  | closed
deriving DecidableEq, Repr

/-- How a document was synchronized last, after a message. -/
def Message.syncAfter (uri : String) (current : String → String) (before : Option Sync) :
    Message → Option Sync
  | opened other text => if other = uri then some (.analysed text) else before
  | changed other | saved other =>
    if other = uri then some (.analysed (current other)) else before
  | closed other => if other = uri then some .closed else before
  | _ => before

section

variable (current : List Message → String → String)

/-- How a document was synchronized last in a session. -/
def lastSync (uri : String) : List Message → Option Sync
  | [] => none
  | m :: ms => m.syncAfter uri (current (m :: ms)) (lastSync uri ms)

/-- No text that is analysed in a session has an integer that is too long. -/
def Digestible : List Message → Prop
  | [] => True
  | m :: ms => (∀ uri text, m.analysed? (current (m :: ms)) = some (uri, text) →
      Document.digestible uri text = true) ∧ Digestible ms

/-- The workspace has the current text of every document, whatever messages have come. -/
def Current (workspace : List Message → Workspace) : Prop :=
  ∀ ms uri, workspace ms uri = .ok (current ms uri)

end

/-! ## Serving

The latest message is the head of the list, for sessions as for publications, so that what was
published last is found first. -/

/-- What is published with a reply. -/
def publishedBy : Except Failure Reply → List Publication
  | .ok reply => reply.published
  | .error _ => []

/-- The notices of a document that were published last. -/
def lastNotices (uri : String) (out : List Publication) : Option (List Notice) :=
  (out.find? (·.uri = uri)).map (·.notices)

theorem lastNotices_append {uri : String} {new : List Publication} (h : ∀ p ∈ new, p.uri ≠ uri)
    (out : List Publication) : lastNotices uri (new ++ out) = lastNotices uri out := by
  have hnone : new.find? (·.uri = uri) = none :=
    List.find?_eq_none.mpr fun p hp => by simpa using h p hp
  rw [lastNotices, List.find?_append, hnone]
  rfl

theorem lastNotices_cons (uri : String) (ns : List Notice) (out : List Publication) :
    lastNotices uri (⟨uri, ns⟩ :: out) = some ns := by
  simp [lastNotices]

namespace Server

/-- The server after a session, and all that it published, the latest first.  The workspace is
that of each point of the session: it has taken a message in before the server sees it. -/
def serve (workspace : List Message → Workspace) : List Message → Server × List Publication
  | [] => ({}, [])
  | m :: ms =>
    let (s, out) := serve workspace ms
    let (reply, s) := s.handle (workspace (m :: ms)) m
    (s, publishedBy reply ++ out)

/-- What a document is told to be by the server and its publications, and how it was
synchronized last, agree. -/
def Settled (uri : String) (s : Server) (out : List Publication) : Option Sync → Prop
  | none => s.document? uri = none ∧ lastNotices uri out = none
  | some .closed => s.document? uri = none ∧ lastNotices uri out = some []
  | some (.analysed text) => ∃ d, Document.ofText uri text = .ok d ∧ d.notices.length ≤ 1 ∧
      s.document? uri = some d ∧ lastNotices uri out = some d.notices

/-! ## One message

A message settles the document that it is about, and leaves all others as they are. -/

section

variable (s : Server) {workspace : Workspace} {uri : String} {m : Message}

/-- What is said of the name at a position of a document, if there is a document. -/
def hoverAnswer (d : Option Document) (cursor : Position) : Answer :=
  ((d.bind (·.hover cursor)).map Answer.hover).getD .nothing

/-- What a document declares, if there is a document. -/
def symbolsAnswer (d : Option Document) : Answer :=
  (d.map fun d => Answer.symbols d.symbols).getD .nothing

theorem hover_eq (uri : String) (cursor : Position) :
    s.hover uri cursor = hoverAnswer (s.document? uri) cursor := by
  unfold hover hoverAnswer
  cases (s.document? uri).bind (·.hover cursor) <;> rfl

theorem symbols_eq (uri : String) : s.symbols uri = symbolsAnswer (s.document? uri) := by
  unfold symbols symbolsAnswer
  cases s.document? uri <;> rfl

/-- An analysis leaves the other documents as they are. -/
theorem refresh_frame {other : String} (h : other ≠ uri) (text : String) :
    (s.refresh other text).2.document? uri = s.document? uri ∧
      ∀ p ∈ publishedBy (s.refresh other text).1, p.uri ≠ uri := by
  unfold refresh
  split
  · exact ⟨rfl, fun p hp => absurd hp List.not_mem_nil⟩
  · refine ⟨?_, fun p hp => ?_⟩
    · exact (ByUri.lookup_insert ..).trans (if_neg fun heq => h heq.symm)
    · rw [List.mem_singleton.mp hp]
      exact h

theorem reanalyse_frame {other : String} (h : other ≠ uri) (workspace : Workspace) :
    (s.reanalyse workspace other).2.document? uri = s.document? uri ∧
      ∀ p ∈ publishedBy (s.reanalyse workspace other).1, p.uri ≠ uri := by
  unfold reanalyse
  split
  · exact ⟨rfl, fun p hp => absurd hp List.not_mem_nil⟩
  · exact s.refresh_frame h _

/-- A message about one document leaves the others as they are. -/
theorem handle_frame (workspace : Workspace) (h : m.uri? ≠ some uri) :
    (s.handle workspace m).2.document? uri = s.document? uri ∧
      ∀ p ∈ publishedBy (s.handle workspace m).1, p.uri ≠ uri := by
  have hother : ∀ other, m.uri? = some other → other ≠ uri :=
    fun other hm heq => h (heq ▸ hm)
  cases m with
  | opened other text => exact s.refresh_frame (hother other rfl) text
  | changed other | saved other => exact s.reanalyse_frame (hother other rfl) workspace
  | closed other =>
      refine ⟨(ByUri.lookup_erase ..).trans (if_neg fun heq => hother other rfl heq.symm), ?_⟩
      intro p hp
      rw [List.mem_singleton.mp hp]
      exact hother other rfl
  | greet | greeted | shutdown | hover | symbols =>
      exact ⟨rfl, fun p hp => absurd hp List.not_mem_nil⟩

/-- A text that can be read is analysed, and the document is settled with it. -/
theorem refresh_settles {text : String} (h : Document.digestible uri text = true)
    (out : List Publication) :
    Settled uri (s.refresh uri text).2 (publishedBy (s.refresh uri text).1 ++ out)
      (some (.analysed text)) := by
  obtain ⟨d, hd, hreported⟩ := Document.ofText_of_digestible h
  refine ⟨d, hd, hreported.notices_length, ?_, ?_⟩
  · simp only [refresh, hd]
    exact (ByUri.lookup_insert ..).trans (if_pos rfl)
  · simp only [refresh, hd]
    exact lastNotices_cons uri d.notices out

/-- So is the text that the workspace has. -/
theorem reanalyse_settles {text : String} (hcurrent : workspace uri = .ok text)
    (h : Document.digestible uri text = true) (out : List Publication) :
    Settled uri (s.reanalyse workspace uri).2 (publishedBy (s.reanalyse workspace uri).1 ++ out)
      (some (.analysed text)) := by
  have hrefresh : s.reanalyse workspace uri = s.refresh uri text := by rw [reanalyse, hcurrent]
  rw [hrefresh]
  exact s.refresh_settles h out

/-- A closed document is forgotten. -/
theorem forget_settles (out : List Publication) :
    Settled uri (s.forget uri) (⟨uri, []⟩ :: out) (some .closed) :=
  ⟨(ByUri.lookup_erase ..).trans (if_pos rfl), lastNotices_cons uri [] out⟩

end

theorem Settled.frame {uri : String} {s s' : Server} {out out' : List Publication}
    (hdocument : s'.document? uri = s.document? uri)
    (hnotices : lastNotices uri out' = lastNotices uri out) {sync : Option Sync}
    (h : Settled uri s out sync) : Settled uri s' out' sync := by
  match sync with
  | none | some .closed | some (.analysed _) => simpa only [Settled, hdocument, hnotices] using h

theorem syncAfter_frame {uri : String} {m : Message} (h : m.uri? ≠ some uri)
    (current : String → String) (before : Option Sync) :
    m.syncAfter uri current before = before := by
  cases m with
  | opened other _ | changed other | saved other | closed other =>
      exact if_neg fun heq => h (congrArg some heq)
  | greet | greeted | shutdown | hover | symbols => rfl

/-- A message keeps a document settled, if the workspace has the current texts and the one that is
analysed can be read. -/
theorem Settled.handle {uri : String} {s : Server} {out : List Publication} {sync : Option Sync}
    (h : Settled uri s out sync) {m : Message} {workspace : Workspace} {current : String → String}
    (hcurrent : ∀ uri, workspace uri = .ok (current uri))
    (hm : ∀ uri text, m.analysed? current = some (uri, text) →
      Document.digestible uri text = true) :
    Settled uri (s.handle workspace m).2 (publishedBy (s.handle workspace m).1 ++ out)
      (m.syncAfter uri current sync) := by
  by_cases huri : m.uri? = some uri
  · cases m with
    | opened other text =>
        obtain rfl : other = uri := Option.some.inj huri
        rw [Message.syncAfter, if_pos rfl]
        exact s.refresh_settles (hm other text rfl) out
    | changed other | saved other =>
        obtain rfl : other = uri := Option.some.inj huri
        rw [Message.syncAfter, if_pos rfl]
        exact s.reanalyse_settles (hcurrent other) (hm other (current other) rfl) out
    | closed other =>
        obtain rfl : other = uri := Option.some.inj huri
        rw [Message.syncAfter, if_pos rfl]
        exact s.forget_settles out
    | hover other cursor => exact h
    | symbols other => exact h
    | greet | greeted | shutdown => cases huri
  · obtain ⟨hdocument, hpublished⟩ := s.handle_frame workspace huri
    rw [syncAfter_frame huri]
    exact h.frame hdocument (lastNotices_append hpublished out)

/-! ## Sessions

One message keeps every document settled, and at the start all are: none is there, and nothing was
published. -/

section

variable {workspace : List Message → Workspace} {current : List Message → String → String}

/-- Every document is settled after a session. -/
theorem settled_serve (hcurrent : Current current workspace) (uri : String) :
    ∀ {ms : List Message}, Digestible current ms →
      Settled uri (serve workspace ms).1 (serve workspace ms).2 (lastSync current uri ms)
  | [], _ => ⟨rfl, rfl⟩
  | m :: ms, h => (settled_serve hcurrent uri h.2).handle (hcurrent (m :: ms)) h.1

/-- If the workspace has the current texts and they can be read, then after a session every
document has an analysis exactly if it was opened, changed or saved last and not closed.  It is
the analysis of the text that was current then; the notices that were published last are its own,
at most one, or none after a close; and requests are answered from it.  A message about another
document changes nothing of this. -/
theorem serve_in_step (hcurrent : Current current workspace) (ms : List Message)
    (h : Digestible current ms) (uri : String) :
    Settled uri (serve workspace ms).1 (serve workspace ms).2 (lastSync current uri ms) ∧
    (∀ w cursor, (serve workspace ms).1.handle w (.hover uri cursor) =
      (.ok { answer := hoverAnswer ((serve workspace ms).1.document? uri) cursor },
        (serve workspace ms).1)) ∧
    (∀ w, (serve workspace ms).1.handle w (.symbols uri) =
      (.ok { answer := symbolsAnswer ((serve workspace ms).1.document? uri) },
        (serve workspace ms).1)) ∧
    ∀ m : Message, m.uri? ≠ some uri →
      (serve workspace (m :: ms)).1.document? uri = (serve workspace ms).1.document? uri ∧
      lastNotices uri (serve workspace (m :: ms)).2 = lastNotices uri (serve workspace ms).2 := by
  refine ⟨settled_serve hcurrent uri h, fun w cursor => ?_, fun w => ?_, fun m hm => ?_⟩
  · rw [handle, hover_eq]
  · rw [handle, symbols_eq]
  · obtain ⟨hdocument, hpublished⟩ := (serve workspace ms).1.handle_frame (workspace (m :: ms)) hm
    exact ⟨hdocument, lastNotices_append hpublished _⟩

end

/-- A session in which one document is saved after it was closed, and then opened again and
changed, beside another. -/
def reopening : List Message :=
  [.symbols "test:b", .changed "test:a", .opened "test:a" "LET x;", .saved "test:a",
    .closed "test:a", .opened "test:b" "DEF main(): Integer DO RETURN 0; END",
    .opened "test:a" "LET x = '"]

/-- The texts that are current in it: a change adds to what was opened, and a document that is not
open is an empty file. -/
def reopeningTexts : List Message → String → String
  | [], _ => ""
  | .opened other text :: ms, uri => if other = uri then text else reopeningTexts ms uri
  | .changed other :: ms, uri =>
    if other = uri then reopeningTexts ms uri ++ " LET y = 2 +;" else reopeningTexts ms uri
  | .closed other :: ms, uri => if other = uri then "" else reopeningTexts ms uri
  | _ :: ms, uri => reopeningTexts ms uri

theorem reopening_in_step :
    Current reopeningTexts (fun ms uri => .ok (reopeningTexts ms uri)) ∧
    Digestible reopeningTexts reopening ∧
    lastSync reopeningTexts "test:a" (reopening.drop 3) = some (.analysed "") ∧
    lastSync reopeningTexts "test:a" reopening = some (.analysed "LET x; LET y = 2 +;") ∧
    ∃ d, Document.ofText "test:a" "LET x; LET y = 2 +;" = .ok d ∧ d.notices.length ≤ 1 ∧
      (serve (fun ms uri => .ok (reopeningTexts ms uri)) reopening).1.document? "test:a" =
        some d ∧
      lastNotices "test:a" (serve (fun ms uri => .ok (reopeningTexts ms uri)) reopening).2 =
        some d.notices ∧
      (serve (fun ms uri => .ok (reopeningTexts ms uri))
        (.closed "test:b" :: reopening)).1.document? "test:a" = some d := by
  have hcurrent : Current reopeningTexts (fun ms uri => .ok (reopeningTexts ms uri)) :=
    fun _ _ => rfl
  have hdigestible : Digestible reopeningTexts reopening := by
    have htexts : ["LET x = '", "LET x;", "", "LET x; LET y = 2 +;"].all
        (Document.digestible "test:a") = true := by decide +kernel
    have hother : Document.digestible "test:b" "DEF main(): Integer DO RETURN 0; END" = true := by
      decide +kernel
    simp only [List.all_cons, List.all_nil, Bool.and_true, Bool.and_eq_true] at htexts
    obtain ⟨hquote, hfield, hempty, hchanged⟩ := htexts
    refine ⟨?_, ?_, ?_, ?_, ?_, ?_, ?_, trivial⟩
    · rintro _ _ ⟨⟩
    · rintro _ _ ⟨⟩; exact hchanged
    · rintro _ _ ⟨⟩; exact hfield
    · rintro _ _ ⟨⟩; exact hempty
    · rintro _ _ ⟨⟩
    · rintro _ _ ⟨⟩; exact hother
    · rintro _ _ ⟨⟩; exact hquote
  have hsync : lastSync reopeningTexts "test:a" reopening =
      some (.analysed "LET x; LET y = 2 +;") := by decide +kernel
  have hsaved : lastSync reopeningTexts "test:a" (reopening.drop 3) = some (.analysed "") := by
    decide +kernel
  obtain ⟨hsettled, -, -, hframe⟩ := serve_in_step hcurrent reopening hdigestible "test:a"
  rw [hsync] at hsettled
  obtain ⟨d, hd, hlength, hdocument, hnotices⟩ := hsettled
  exact ⟨hcurrent, hdigestible, hsaved, hsync, d, hd, hlength, hdocument, hnotices,
    (hframe (.closed "test:b") (by decide)).1.trans hdocument⟩

end Server

end Editor

end QuillLang
