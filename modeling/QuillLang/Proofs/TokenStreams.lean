/-
# Asking a token stream again

A stream is asked to read its text, or for its tokens, any number of times and
in any order.  It answers from what the last reading left, and does not keep
whether that reading came to the end of the text.

Reading always answers as `tokenize` does.  So does asking for the tokens of a
text that can be read to its end.  If the text cannot, the answer is the error
only as long as nothing has been kept: on the first request, or where no token
stands before the fault.  From the second request on it is the tokens before the
fault, as if there were no more (`TokenStream.iterate_after`).

What carries this is that after any request the tokens kept are those of the
text, up to the fault if there is one (`TokenStream.KeepsTokens.answer`).
-/
import QuillLang.Proofs.LongestMatch
import QuillLang.Token.Stream

namespace QuillLang.TokenStream

/-! ## Requests -/

/-- What a stream is asked for: to read its text anew, or for its tokens. -/
inductive Request where
  | read
  | iterate
deriving DecidableEq, Repr

/-- The answer to a request, and the stream after it. -/
def answer (s : TokenStream) : Request → Except ScanError (List Token) × TokenStream
  | .read => s.read
  | .iterate => s.iterate

/-- A stream after requests made one after the other. -/
def after (s : TokenStream) (requests : List Request) : TokenStream :=
  requests.foldl (fun s r => (s.answer r).2) s

/-- A stream that nothing has been asked of. -/
def ofText (source : String) (file : Option String) : TokenStream := { source, file }

/-! ## What is kept

A stream keeps nothing before it is first asked for something.  After that, whatever it is asked
for, it keeps what reading its text leaves. -/

/-- A stream of a text that keeps some tokens. -/
structure KeepsTokens (source : String) (file : Option String) (kept : List Token)
    (s : TokenStream) : Prop where
  source : s.source = source
  file : s.file = file
  kept : s.kept = kept

variable {source : String} {file : Option String} {s : TokenStream}

/-- The tokens that reading a text leaves, also if it does not come to the end. -/
def residue (source : String) (file : Option String) : List Token :=
  (Scan.ofText source.toList file).tokens

theorem KeepsTokens.read {kept : List Token} (h : KeepsTokens source file kept s) :
    s.read.1 = tokenize source file ∧ KeepsTokens source file (residue source file) s.read.2 := by
  obtain ⟨rfl, rfl, -⟩ := h
  exact ⟨rfl, rfl, rfl, rfl⟩

/-- A stream that keeps nothing reads its text when it is asked for the tokens. -/
theorem KeepsTokens.iterate_nil (h : KeepsTokens source file [] s) : s.iterate = s.read := by
  rw [iterate, h.kept]
  rfl

theorem KeepsTokens.iterate_residue (h : KeepsTokens source file (residue source file) s) :
    s.iterate.1 = (if residue source file = [] then tokenize source file
      else .ok (residue source file)) ∧
    KeepsTokens source file (residue source file) s.iterate.2 := by
  by_cases hresidue : residue source file = []
  · -- an empty row of tokens is taken for none, so the text is read again
    rw [hresidue] at h
    rw [h.iterate_nil, if_pos hresidue]
    exact h.read
  · have hkept : s.kept.isEmpty = false := by
      rw [h.kept]
      simpa using hresidue
    rw [iterate, hkept, if_neg hresidue]
    exact ⟨congrArg Except.ok h.kept, h⟩

/-- After a request to a stream that keeps nothing, or what reading leaves, it keeps what reading
leaves. -/
theorem KeepsTokens.answer {kept : List Token} (h : KeepsTokens source file kept s)
    (hkept : kept = [] ∨ kept = residue source file) (r : Request) :
    KeepsTokens source file (residue source file) (s.answer r).2 := by
  cases r with
  | read => exact h.read.2
  | iterate =>
      rcases hkept with rfl | rfl
      · show KeepsTokens source file (residue source file) s.iterate.2
        rw [h.iterate_nil]
        exact h.read.2
      · exact h.iterate_residue.2

theorem KeepsTokens.after (h : KeepsTokens source file (residue source file) s)
    (requests : List Request) :
    KeepsTokens source file (residue source file) (s.after requests) := by
  induction requests generalizing s with
  | nil => exact h
  | cons r requests ih => exact ih (h.answer (.inr rfl) r)

theorem keepsTokens_ofText (source : String) (file : Option String) :
    KeepsTokens source file [] (ofText source file) := ⟨rfl, rfl, rfl⟩

/-- Once something has been asked of a stream, it keeps what reading leaves. -/
theorem keepsTokens_after {requests : List Request} (h : requests ≠ []) :
    KeepsTokens source file (residue source file) ((ofText source file).after requests) := by
  obtain ⟨r, requests, rfl⟩ := List.exists_cons_of_ne_nil h
  exact ((keepsTokens_ofText source file).answer (.inl rfl) r).after requests

/-! ## Answers -/

theorem read_after (requests : List Request) :
    ((ofText source file).after requests).read.1 = tokenize source file := by
  by_cases h : requests = []
  · subst h
    exact (keepsTokens_ofText source file).read.1
  · exact (keepsTokens_after h).read.1

theorem iterate_after_eq (requests : List Request) :
    ((ofText source file).after requests).iterate.1 =
      if requests = [] ∨ residue source file = [] then tokenize source file
      else .ok (residue source file) := by
  by_cases h : requests = []
  · subst h
    rw [if_pos (.inl rfl)]
    show (ofText source file).iterate.1 = _
    rw [(keepsTokens_ofText source file).iterate_nil]
    exact (keepsTokens_ofText source file).read.1
  · rw [(keepsTokens_after h).iterate_residue.1]
    simp only [h, false_or]

theorem residue_of_ok {ts : List Token} (h : tokenize source file = .ok ts) :
    residue source file = ts := by
  unfold tokenize Scan.result at h
  split at h
  · exact Except.ok.inj h
  · cases h

/-- The tokens of a text that cannot be read to its end stand in front of text that no token
begins. -/
theorem residue_of_error {e : ScanError} (h : tokenize source file = .error e) :
    ∃ rest, Cut source.toList file 0 source.toList (residue source file) rest ∧ Stuck rest := by
  obtain ⟨rest, hcut, hremains⟩ := Scan.ofText_cuts source.toList file
  unfold tokenize Scan.result at h
  generalize (Scan.ofText source.toList file).error = error at h hremains
  cases hremains with
  | nothing => cases h
  | stuck hstuck _ => exact ⟨rest, hcut, hstuck⟩

/-- Whatever has been asked of a stream before, reading answers as `tokenize` does, and so does
asking for the tokens of a text that can be read to its end.  For other texts, asking for the tokens
gives the error if nothing was asked before or no token stands before the fault, and else the
tokens before the fault. -/
theorem iterate_after (source : String) (file : Option String) (requests : List Request) :
    ((ofText source file).after requests).read.1 = tokenize source file ∧
    (∀ ts, tokenize source file = .ok ts →
      ((ofText source file).after requests).iterate.1 = .ok ts) ∧
    ∀ e, tokenize source file = .error e →
      ∃ ts rest, Cut source.toList file 0 source.toList ts rest ∧ Stuck rest ∧
        ((ofText source file).after requests).iterate.1 =
          if requests = [] ∨ ts = [] then .error e else .ok ts := by
  refine ⟨read_after requests, fun ts hts => ?_, fun e he => ?_⟩
  · rw [iterate_after_eq, residue_of_ok hts, hts, ite_self]
  · obtain ⟨rest, hcut, hstuck⟩ := residue_of_error he
    exact ⟨residue source file, rest, hcut, hstuck, he ▸ iterate_after_eq requests⟩

/-- A text that breaks off in a character literal, after a name. -/
def openQuote : String := "a '"

theorem openQuote_forgotten :
    tokenize openQuote none = .error ⟨⟨⟨1, 4, 3, none⟩, 0⟩, .emptyCharacter⟩ ∧
    ((ofText openQuote none).after [.read]).iterate.1 =
      .ok [⟨.identifier, "a", ⟨1, 1, 0, none⟩⟩] := by
  constructor <;> rfl

theorem openQuote_iterate_after : ∃ e ts rest, tokenize openQuote none = .error e ∧
    Cut openQuote.toList none 0 openQuote.toList ts rest ∧ Stuck rest ∧ ts ≠ [] ∧
    ((ofText openQuote none).after [.iterate, .read]).iterate.1 = .ok ts := by
  have herror : tokenize openQuote none = .error ⟨⟨⟨1, 4, 3, none⟩, 0⟩, .emptyCharacter⟩ := rfl
  obtain ⟨-, -, hiterate⟩ := iterate_after openQuote none [.iterate, .read]
  obtain ⟨ts, rest, hcut, hstuck, hanswer⟩ := hiterate _ herror
  have hne : ts ≠ [] := by
    rintro rfl
    rw [if_pos (.inr rfl)] at hanswer
    cases hanswer
  refine ⟨_, ts, rest, herror, hcut, hstuck, hne, ?_⟩
  rw [hanswer, if_neg (by simp [hne])]

end QuillLang.TokenStream
