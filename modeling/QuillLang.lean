import QuillLang.Editor.Options
import QuillLang.Editor.Server
import QuillLang.Embedding.Points
import QuillLang.Embedding.Scopes
import QuillLang.Main
import QuillLang.Proofs.CallDepth
import QuillLang.Proofs.CallResolution
import QuillLang.Proofs.CheckedScopes
import QuillLang.Proofs.Comparison
import QuillLang.Proofs.CompleteModels
import QuillLang.Proofs.ErrorPlaces
import QuillLang.Proofs.ExactArithmetic
import QuillLang.Proofs.Hints
import QuillLang.Proofs.Hovers
import QuillLang.Proofs.LexicalScope
import QuillLang.Proofs.MethodOrder
import QuillLang.Proofs.Outlines
import QuillLang.Proofs.Positions
import QuillLang.Proofs.QuotedLiterals
import QuillLang.Proofs.ReadBack
import QuillLang.Proofs.ReadingProgress
import QuillLang.Proofs.RoundTrip
import QuillLang.Proofs.Rounding
import QuillLang.Proofs.RunsAlone
import QuillLang.Proofs.ScopeTrees
import QuillLang.Proofs.ServerSessions
import QuillLang.Proofs.Spacing
import QuillLang.Proofs.Suggestions
import QuillLang.Proofs.TokenStreams
import QuillLang.Proofs.Tracing
import QuillLang.Proofs.UnderlineRows
import QuillLang.Proofs.Underlines
import QuillLang.Session
