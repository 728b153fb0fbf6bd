/-
  Templates read the paths that they describe.

  * what a reader remembers is what the last path gives (`Reader.Remembers`), so asking it
    is asking the template (`read?_asked`);
  * `reads_grammar` is the main statement: the pattern of every template is a regular
    expression with a group for each placeholder, a path is read just if it is one that the
    template describes, and what is captured is one of the ways to read it.
-/
import Mathlib
import SongLibrary.Proofs.Template.Expression
import SongLibrary.Proofs.Template.Matching

namespace SongLibrary.Template

namespace Reader

variable {r : Reader}

/-- What a reader remembers is what the last path gives. -/
def Remembers (r : Reader) : Prop :=
  ∀ path captures, r.last = some (path, captures) → captures = r.template.read? path

/-- The reader after it was asked about some paths, one after the other. -/
def asked (r : Reader) (paths : List String) : Reader :=
  paths.foldl (fun r path => (r.read? path).2) r

theorem Remembers.read? (h : r.Remembers) (path : String) :
    (r.read? path).1 = r.template.read? path ∧ (r.read? path).2.Remembers ∧
      (r.read? path).2.template = r.template := by
  have hfresh : ({ r with last := some (path, r.template.read? path) } : Reader).Remembers := by
    intro last captures heq
    cases heq
    rfl
  unfold Reader.read?
  split
  · next last captures hlast =>
    split
    · next hsame => exact ⟨hsame ▸ h _ _ hlast, h, rfl⟩
    · exact ⟨rfl, hfresh, rfl⟩
  · exact ⟨rfl, hfresh, rfl⟩

/-- A reader that was asked about some paths still is one of its template. -/
theorem Remembers.asked (h : r.Remembers) (earlier : List String) :
    (r.asked earlier).Remembers ∧ (r.asked earlier).template = r.template := by
  induction earlier generalizing r with
  | nil => exact ⟨h, rfl⟩
  | cons first rest ih =>
    obtain ⟨-, hremembers, htemplate⟩ := h.read? first
    obtain ⟨hrest, hsame⟩ := ih hremembers
    exact ⟨hrest, hsame.trans htemplate⟩

/-- The value of a tag that it gives is the one of the template. -/
theorem Remembers.extract? (h : r.Remembers) (path : String) (key : TagKey) :
    (r.extract? path key).1 = r.template.extract? path key ∧ (r.extract? path key).2.Remembers ∧
      (r.extract? path key).2.template = r.template := by
  obtain ⟨hread, hremembers, htemplate⟩ := h.read? path
  refine ⟨?_, hremembers, htemplate⟩
  simp only [Reader.extract?, Template.extract?, hread, htemplate]

/-- So is the piece of path. -/
theorem Remembers.extractBypass? (h : r.Remembers) (path : String) :
    (r.extractBypass? path).1 = r.template.extractBypass? path ∧
      (r.extractBypass? path).2.Remembers ∧ (r.extractBypass? path).2.template = r.template := by
  obtain ⟨hread, hremembers, htemplate⟩ := h.read? path
  refine ⟨?_, hremembers, htemplate⟩
  simp only [Reader.extractBypass?, Template.extractBypass?, hread, htemplate]

theorem remembers_of (t : Template) : (of t).Remembers :=
  fun _ _ hnone => by cases hnone

/-- **A reader gives what its template gives**, whatever it was asked before. -/
theorem read?_asked (t : Template) (earlier : List String) (path : String) :
    (((of t).asked earlier).read? path).1 = t.read? path := by
  obtain ⟨h, htemplate⟩ := (remembers_of t).asked earlier
  rw [(h.read? path).1, htemplate]
  rfl

/-- So are the values of tags that it gives. -/
theorem extract?_asked (t : Template) (earlier : List String) (path : String) (key : TagKey) :
    (((of t).asked earlier).extract? path key).1 = t.extract? path key := by
  obtain ⟨h, htemplate⟩ := (remembers_of t).asked earlier
  rw [(h.extract? path key).1, htemplate]
  rfl

/-- So is the piece of path that it gives. -/
theorem extractBypass?_asked (t : Template) (earlier : List String) (path : String) :
    (((of t).asked earlier).extractBypass? path).1 = t.extractBypass? path := by
  obtain ⟨h, htemplate⟩ := (remembers_of t).asked earlier
  rw [(h.extractBypass? path).1, htemplate]
  rfl

end Reader

/-- **Every template reads exactly the paths that it describes.**  Its pattern is the text of
    a regular expression that has a group for each placeholder, in their order, and no other,
    and that is found where the template reads a path; a path is matched just if the template
    reads it; and what is captured for the placeholders is one of the readings, where each
    placeholder has what stands at its own place. -/
theorem reads_grammar (template : String) :
    (∃ e, Expression.read? (compile template).pattern.regex = some e ∧
      e.numbers = List.range' 1 (compile template).placeholders.length ∧
      e.numbers = (compile template).placeholders.map (·.capture) ∧
      ∀ path σ, e.Search path.toList σ ↔ ∃ captures, (compile template).Reads path captures ∧
        σ = Expression.assign (fun _ => none) 1 captures) ∧
    (∀ path, ((compile template).read? path).isSome ↔
      ∃ captures, (compile template).Reads path captures) ∧
    (∀ path, ∀ captures ∈ (compile template).read? path, (compile template).Reads path captures ∧
      captures.length = (compile template).placeholders.length ∧
      ∀ i (h : i < (compile template).placeholders.length),
        ((compile template).placeholders[i]).captured? captures = captures[i]?.join) ∧
    ∀ earlier path, (((Reader.of (compile template)).asked earlier).read? path).1 =
      (compile template).read? path := by
  refine ⟨⟨_, Expression.read?_regex _, ?_, ?_, fun path σ => ?_⟩, fun path => read?_isSome_iff,
    fun path captures h => ?_, fun earlier path => Reader.read?_asked _ earlier path⟩
  · rw [Expression.numbers_expression, captureCount_pattern]
  · rw [Expression.numbers_expression, captureCount_pattern, captures_eq]
  · rw [Expression.search_expression_iff]
    simp only [pattern_reads_iff]
  · have hreads := reads_of_read? h
    exact ⟨hreads, hreads.length_captures, fun i hi => captured?_eq hi captures⟩

/-- Without its genre and its disc, a path still gives the artist and the title. -/
theorem reads_grammar_sample :
    (compile "\x7b%GENRE%/\x7d%ARTIST%\x7b [%DISC%]\x7d/%TITLE%").read? "A/t.mp3" =
        some [none, some ['A'], none, some ['t']] ∧
      (compile "\x7b%GENRE%/\x7d%ARTIST%\x7b [%DISC%]\x7d/%TITLE%").Reads "A/t.mp3"
        [none, some ['A'], none, some ['t']] := by
  have hread : (compile "\x7b%GENRE%/\x7d%ARTIST%\x7b [%DISC%]\x7d/%TITLE%").read? "A/t.mp3" =
      some [none, some ['A'], none, some ['t']] := by cbv
  exact ⟨hread, ((reads_grammar _).2.2.1 "A/t.mp3" _ hread).1⟩

end SongLibrary.Template
