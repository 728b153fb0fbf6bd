/-
  What a template looks at in a song.

  `Template.consulted` are the tags that the placeholders of a template stand for, with
  those that decide whether they are written; a path depends on these tags and the
  extension of the song's file alone (`Template.render_congr`).
-/
import SongLibrary.Template.Rendering

namespace SongLibrary.Template

/-- The tags that are looked at for a field.  That the artist may repeat the album artist
    matters only where the template mentions both. -/
def Field.consulted : Field → List TagKey
  | .albumArtist => [.albumArtist, .artist]
  | .composer => [.composer, .genre, .albumArtist, .artist]
  | .conductor => [.conductor, .genre]
  | .disc => [.discNumber, .discTotal]
  | field => field.tagKey?.toList

/-- The tags that are looked at in a song. -/
def consulted (t : Template) : List TagKey :=
  t.placeholders.flatMap (·.field.consulted)

variable {t : Template} {refs : ReferenceData} {a b : Song} {bypass : Option String}

theorem artistOf_congr (h : a.get? .artist = b.get? .artist) : artistOf a = artistOf b := by
  rw [artistOf, artistOf, h]

theorem albumArtistOf_congr (h : ∀ key ∈ Field.consulted .albumArtist, a.get? key = b.get? key) :
    albumArtistOf a = albumArtistOf b := by
  rw [albumArtistOf, albumArtistOf, h _ (by decide), artistOf_congr (h _ (by decide))]

theorem classicalValue_congr {key : TagKey} (hgenre : a.get? .genre = b.get? .genre)
    (h : a.get? key = b.get? key) : classicalValue refs a key = classicalValue refs b key := by
  rw [classicalValue, classicalValue, isClassical, isClassical, hgenre, h]

theorem number_congr {key : TagKey} (h : a.get? key = b.get? key) : a.number key = b.number key := by
  rw [Song.number, Song.number, h]

/-- What a field stands for depends on the tags that are looked at for it, and for the
    album artist if the template mentions it. -/
theorem value_congr (field : Field) (h : ∀ key ∈ field.consulted, a.get? key = b.get? key)
    (hartist : t.mentions .albumArtist →
      ∀ key ∈ Field.consulted .albumArtist, a.get? key = b.get? key) :
    t.value refs a bypass field = t.value refs b bypass field := by
  cases field with
  | artist =>
    have hsame := artistOf_congr (h .artist (by decide))
    unfold value artistValue
    dsimp only
    by_cases hm : t.mentions .albumArtist
    · rw [hsame, albumArtistOf_congr (hartist hm)]
    · simp [hm, hsame]
  | albumArtist => exact albumArtistOf_congr h
  | composer =>
    have hvalue : classicalValue refs a .composer = classicalValue refs b .composer :=
      classicalValue_congr (h .genre (by decide)) (h .composer (by decide))
    have halbum : albumArtistOf a = albumArtistOf b :=
      albumArtistOf_congr fun key hkey => h key (List.mem_cons_of_mem _ (List.mem_cons_of_mem _ hkey))
    rw [value, value, composerValue, composerValue, hvalue, halbum,
      artistOf_congr (h .artist (by decide))]
  | conductor => exact classicalValue_congr (h .genre (by decide)) (h .conductor (by decide))
  | disc =>
    rw [value, value, number_congr (h .discTotal (by decide)), numberValue, numberValue,
      number_congr (h .discNumber (by decide))]
  | trackNumber | paddedTrackNumber =>
    simp only [value, numberValue, number_congr (h .trackNumber (by decide))]
  | bpm => simp only [value, numberValue, number_congr (h .bpm (by decide))]
  | bypass => rfl
  | album => simp only [value, h .album (by decide)]
  | dance => simp only [value, h .dance (by decide)]
  | genre => simp only [value, h .genre (by decide)]
  | rating => simp only [value, h .danceRating (by decide)]
  | status => simp only [value, h .status (by decide)]
  | title => simp only [value, h .title (by decide)]

/-- **A path depends on the tags that its template looks at alone**, and on the extension
    of the song's file. -/
theorem render_congr (s : Sanitizer) (huri : a.uri = b.uri)
    (h : ∀ key ∈ t.consulted, a.get? key = b.get? key) :
    t.render refs a bypass s = t.render refs b bypass s := by
  have hfield : ∀ p ∈ t.placeholders, ∀ key ∈ p.field.consulted, a.get? key = b.get? key :=
    fun p hp key hkey => h key (List.mem_flatMap.2 ⟨p, hp, hkey⟩)
  have hrendered : ∀ p ∈ t.placeholders,
      t.rendered refs a bypass s p.field = t.rendered refs b bypass s p.field := by
    intro p hp
    have hvalue : t.value refs a bypass p.field = t.value refs b bypass p.field :=
      value_congr p.field (hfield p hp) fun hm => by
        obtain ⟨q, hq, heq⟩ := List.any_eq_true.1 hm
        exact (beq_iff_eq.1 heq) ▸ hfield q hq
    rw [rendered, rendered, hvalue]
  have hgroups : ∀ g ∈ t.groups,
      t.renderGroup refs a bypass s g = t.renderGroup refs b bypass s g := by
    intro g hg
    have hmem : ∀ p ∈ g.placeholders, p ∈ t.placeholders := fun p hp => List.mem_flatMap.2 ⟨g, hg, hp⟩
    have hwritten : t.isWritten refs a bypass s g = t.isWritten refs b bypass s g := by
      have hany : (g.placeholders.any fun p => !(t.rendered refs a bypass s p.field).isEmpty) =
          g.placeholders.any fun p => !(t.rendered refs b bypass s p.field).isEmpty := by
        rw [Bool.eq_iff_iff, List.any_eq_true, List.any_eq_true]
        exact exists_congr fun p => and_congr_right fun hp => by rw [hrendered p (hmem p hp)]
      rw [isWritten, isWritten, hany]
    have hsegments : ∀ x ∈ g.segments,
        t.renderSegment refs a bypass s x = t.renderSegment refs b bypass s x := by
      intro x hx
      cases x with
      | literal text => rfl
      | placeholder p =>
        exact hrendered p (hmem p (List.mem_filterMap.2 ⟨.placeholder p, hx, rfl⟩))
    rw [renderGroup, renderGroup, hwritten, List.flatMap_def, List.map_congr_left hsegments,
      ← List.flatMap_def]
  rw [render, render, renderGroups, renderGroups, List.flatMap_def, List.map_congr_left hgroups,
    ← List.flatMap_def, renderExtension, renderExtension, Song.extension?, Song.extension?, huri]

end SongLibrary.Template
