/-
  Asking a reader.

  A reader keeps what the last path gave, also that it gave nothing.  `Reader.answers` are its
  answers to questions that are asked one after the other.

  * `Remembers.answer?`: an answer is the one of the template, and the reader still remembers
    what the last path gives;
  * `answers_eq_fresh` is the main statement: what a reader was asked before makes no difference.
-/
import SongLibrary.Proofs.Template.Parsing

namespace SongLibrary.Template

/-- What can be asked about a path: the value of a tag, or the piece that `%BYPASS%` stands
    for. -/
inductive Question where
  | tag (path : String) (key : TagKey)
  | bypass (path : String)

/-- The answer of a template, which matches the path of each question. -/
def answer? (t : Template) : Question → Option String
  | .tag path key => t.extract? path key
  | .bypass path => t.extractBypass? path

namespace Reader

/-- The answer of a reader, and the reader after it. -/
def answer? (r : Reader) : Question → Option String × Reader
  | .tag path key => r.extract? path key
  | .bypass path => r.extractBypass? path

/-- The answers of a reader to questions that are asked one after the other. -/
def answers (r : Reader) : List Question → List (Option String)
  | [] => []
  | question :: rest => (r.answer? question).1 :: (r.answer? question).2.answers rest

variable {r : Reader}

theorem Remembers.answer? (h : r.Remembers) (question : Question) :
    (r.answer? question).1 = r.template.answer? question ∧ (r.answer? question).2.Remembers ∧
      (r.answer? question).2.template = r.template := by
  cases question with
  | tag path key => exact h.extract? path key
  | bypass path => exact h.extractBypass? path

/-- A reader that remembers what the last path gives answers as its template does. -/
theorem Remembers.answers (h : r.Remembers) (questions : List Question) :
    r.answers questions = questions.map r.template.answer? := by
  induction questions generalizing r with
  | nil => rfl
  | cons question rest ih =>
    obtain ⟨hanswer, hremembers, htemplate⟩ := h.answer? question
    rw [Reader.answers, List.map_cons, hanswer, ih hremembers, htemplate]

theorem answer?_of (t : Template) (question : Question) :
    ((of t).answer? question).1 = t.answer? question :=
  ((remembers_of t).answer? question).1

/-- **What a reader was asked before makes no difference.**  To questions that are asked one
    after the other, about any paths, it gives the answers that a reader of the same template
    gives that has not been asked yet; and these come of matching the path of the question. -/
theorem answers_eq_fresh (template : String) (questions : List Question) :
    (of (compile template)).answers questions =
      questions.map (fun question => ((of (compile template)).answer? question).1) ∧
    ∀ question, ((of (compile template)).answer? question).1 =
      (compile template).answer? question := by
  refine ⟨?_, answer?_of _⟩
  simp only [answer?_of]
  exact (remembers_of _).answers questions

/-- A path that is not matched between two that are. -/
example : (of (compile "\x7b%ARTIST%/\x7d\x7b%TITLE%\x7d")).answers
    [.tag "A/x.mp3" .artist, .tag "y.mp3" .title, .bypass "y.mp3", .tag "A/x.mp3" .title] =
      [some "A", none, none, some "x"] := by
  cbv

end Reader

end SongLibrary.Template
