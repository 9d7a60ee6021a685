import Publication.Article.Compile
import Publication.Image.Size
import Publication.Proofs.Document.Redirection
import Publication.Proofs.FileSystem.Effects
import Publication.Proofs.FileSystem.Spellings
import Publication.Proofs.Image.Chunks
import Publication.Proofs.Latex.Requests
import Publication.Proofs.Text.Octets

/-! Thumbnails go to places of their own: beside the image that they are made of but never to it,
whether paths are texts or octets. So the image of an article stays as it is, its thumbnail can be
made again without a change, and the two are different resources.
-/

namespace Publication

open Publication.Document Publication.Text
open Publication.Latex (Bench adapt_eq_ok_iff adapt_of_error bind_of_error bind_of_ok)

-----------------------------------------------------------------------------------------
-- Paths of octets
-----------------------------------------------------------------------------------------

/-- A path of octets, each of them a character of its own. -/
def Path.ofOctets (octets : List UInt8) : Path := ⟨Image.Png.latin1 octets⟩

/-- Paths as texts. -/
def Path.Encoding.plain : Encoding where
  spell c := [c]
  filled _ := List.cons_ne_nil _ _
  ascii _ := rfl
  ascii_mem _ member := (List.mem_singleton.mp member).symm
  read name := name
  read_word name := by simp [Spelling.word, Spelling.text]
  slash_of_read slash := slash

@[simp] theorem Path.Encoding.word_plain (name : String) : plain.word name = name := by
  simp [plain, Spelling.word, Spelling.text]

/-- A character of ASCII is written as the octet that has its number. -/
theorem Path.map_utf8EncodeChar_of_ascii {c : Char} (ascii : IsAscii c)
    : (String.utf8EncodeChar c).map (fun octet => Char.ofNat octet.toNat) = [c] := by
  have small : c.val.toNat < 0x80 := ascii
  have octet : (UInt8.ofNat c.val.toNat).toNat = c.toNat := by
    rw [UInt8.toNat_ofNat', Nat.mod_eq_of_lt (by omega)]
    rfl
  rw [String.utf8EncodeChar, if_pos (by omega), List.map_singleton, octet, Char.ofNat_toNat]

/-- Paths as octets. Names in them are read as texts as far as they are texts. -/
def Path.Encoding.octets : Encoding where
  spell c := (String.utf8EncodeChar c).map fun octet => Char.ofNat octet.toNat
  filled c := by simp
  ascii := map_utf8EncodeChar_of_ascii
  ascii_mem := by
    intro m c ascii member
    obtain ⟨octet, among, rfl⟩ := List.mem_map.mp member
    have number := Image.Png.toNat_ofNat_octet octet
    rw [← Char.toNat_inj, number]
    exact toNat_of_mem_utf8EncodeChar among (number ▸ ascii)
  read name := String.ofList (ofUtf8Lossy (name.toList.filterMap Image.Png.latin1Octet?))
  read_word name := by
    have octets : (name.toList.flatMap fun c => (String.utf8EncodeChar c).map
        fun octet => Char.ofNat octet.toNat).filterMap Image.Png.latin1Octet? = utf8 name := by
      simp [utf8_eq_flatMap, List.filterMap_flatMap, List.filterMap_map]
    rw [Spelling.word, String.toList_ofList, Spelling.text, octets, ofUtf8Lossy_utf8,
      String.ofList_toList]
  slash_of_read := by
    intro name slash
    rw [String.toList_ofList] at slash
    obtain ⟨c, among, octet⟩ := List.mem_filterMap.mp (slash_mem_of_lossy slash)
    rwa [← Image.Png.ofNat_of_latin1Octet? octet] at among

/-- The path of a text in UTF-8. -/
theorem Path.octets_path (path : Path)
    : Encoding.octets.path path = ofOctets (utf8 path.text) := by
  rw [Spelling.path, Spelling.word, ofOctets, Image.Png.latin1, utf8_eq_flatMap, List.map_flatMap]
  rfl

-----------------------------------------------------------------------------------------
-- Where thumbnails go
-----------------------------------------------------------------------------------------

/-- The stem of the file name of a thumbnail. -/
theorem Path.stemOf_thumbnail (stem : String)
    : stemOf (stem ++ ".thumb.png") = stem ++ ".thumb" := by
  have cut : (stem ++ ".thumb.png").toList = (stem ++ ".thumb").toList ++ '.' :: "png".toList := by
    simp
  have filled : (stem ++ ".thumb").toList ≠ [] := by
    simp
  rw [stemOf_of_last_dot cut (by decide), if_neg filled, String.ofList_toList]

namespace Image

/-- A path next to an image, for its thumbnail: it is another one and leads elsewhere, and it is in
the directory of the image, if that has a file name.
-/
structure Beside (source thumbnail : Path) : Prop where
  components : thumbnail.components ≠ source.components
  place : ∀ here, thumbnail.place here ≠ source.place here
  parent : source.fileName? ≠ none → thumbnail.parent? = source.parent?
  fileName : ∃ front, thumbnail.fileName? = some (front ++ ".thumb.png")

/-- Where the thumbnail of an image is written, if paths are written in an encoding: the stem is
read as text, and the name that is made of it is spelled.
-/
def thumbnailIn (encoding : Path.Encoding) (source : Path) : Path :=
  source.withFileName
    (encoding.word (encoding.read (source.fileStem?.getD "") ++ ".thumb.png"))

section

variable (encoding : Path.Encoding)

/-- The name of a thumbnail is a file name: its stem has no separators to be read. -/
theorem isName_thumbnailIn (source : Path)
    : IsName (encoding.word (encoding.read (source.fileStem?.getD "") ++ ".thumb.png")) := by
  have stem : '/' ∉ (source.fileStem?.getD "").toList := by
    cases named : source.fileName? with
    | none => simp [Path.fileStem?, named]
    | some name =>
        have absent := Path.not_mem_stemOf (Path.place_of_fileName? named).1.1
        simpa [Path.fileStem?, named] using absent
  refine isName_of_length ?_ ?_
  · rw [encoding.toList_word, encoding.ascii_mem_text Path.isAscii_slash, String.toList_append,
      List.mem_append, not_or]
    exact ⟨fun slash => stem (encoding.slash_of_read slash), by decide⟩
  · have length := encoding.length_le_text
      (encoding.read (source.fileStem?.getD "") ++ ".thumb.png").toList
    have least : ".thumb.png".toList.length = 10 := rfl
    rw [String.toList_append, List.length_append] at length
    rw [encoding.toList_word, String.toList_append]
    omega

/-- No name is that of its own thumbnail, which would have a longer stem. -/
theorem fileName?_ne_thumbnailIn (source : Path)
    : source.fileName?
      ≠ some (encoding.word (encoding.read (source.fileStem?.getD "") ++ ".thumb.png")) := by
  intro named
  have stem : source.fileStem?.getD ""
      = encoding.word (encoding.read (source.fileStem?.getD "") ++ ".thumb") := by
    nth_rewrite 1 [Path.fileStem?]
    rw [named, Option.map_some, Option.getD_some, encoding.stemOf_word, Path.stemOf_thumbnail]
  have read := congrArg encoding.read stem
  rw [encoding.read_word] at read
  have length := congrArg String.length read
  simp at length

/-- Thumbnails are beside their images, however paths are written. -/
theorem beside_thumbnailIn (source : Path) : Beside source (thumbnailIn encoding source) := by
  have proper := isName_thumbnailIn encoding source
  have apart := fileName?_ne_thumbnailIn encoding source
  refine ⟨Path.components_withFileName_ne proper apart,
    Path.place_withFileName_ne proper apart, fun some => ?_,
    encoding.word (encoding.read (source.fileStem?.getD "")), ?_⟩
  · obtain ⟨name, named⟩ := Option.ne_none_iff_exists'.mp some
    obtain ⟨_, _, _, same⟩ := Path.withFileName_of_fileName? named proper
    exact same
  · have ascii : ∀ c ∈ ".thumb.png".toList, Path.IsAscii c := by
      simp [Path.IsAscii]
    rw [thumbnailIn, Path.fileName?_withFileName source proper, encoding.word_append,
      encoding.word_of_ascii ascii]

/-- The thumbnail of a spelled path is spelled like that of the path. -/
theorem thumbnailIn_path (source : Path)
    : thumbnailIn encoding (encoding.path source) = encoding.path (thumbnailPath source) := by
  have empty : encoding.read "" = "" := encoding.read_word ""
  have stem : encoding.read ((encoding.path source).fileStem?.getD "")
      = source.fileStem?.getD "" := by
    rw [encoding.fileStem?_path]
    cases source.fileStem? with
    | none => exact empty
    | some stem => exact encoding.read_word stem
  rw [thumbnailIn, stem, encoding.withFileName_path, thumbnailPath]

end

theorem thumbnailIn_plain (source : Path) : thumbnailIn .plain source = thumbnailPath source := by
  rw [thumbnailIn, Path.Encoding.word_plain]
  rfl

/-- Thumbnails are beside their images. -/
theorem beside_thumbnailPath (source : Path) : Beside source (thumbnailPath source) :=
  thumbnailIn_plain source ▸ beside_thumbnailIn .plain source

example
    : [⟨"figs/box.jpg/"⟩, ⟨"plot.thumb.png"⟩, ⟨".png"⟩, ⟨".."⟩].map thumbnailPath
      = [⟨"figs/box.thumb.png"⟩, ⟨"plot.thumb.thumb.png"⟩, ⟨".png.thumb.png"⟩,
          ⟨"../.thumb.png"⟩] := by
  decide +kernel

/-- A thumbnail has the name of a thumbnail, and is not where the image is that it is made of. -/
theorem exists_name_thumbnailPath (source : Path)
    : ∃ stem,
        IsName (stem ++ ".thumb.png")
        ∧ ∀ here,
            (∃ dir, (thumbnailPath source).place here = dir ++ [stem ++ ".thumb.png"])
            ∧ (thumbnailPath source).place here ≠ source.place here := by
  obtain ⟨stem, named⟩ := (beside_thumbnailPath source).fileName
  obtain ⟨proper, leads⟩ := Path.place_of_fileName? named
  exact ⟨stem, proper, fun here => ⟨leads here, (beside_thumbnailPath source).place here⟩⟩

-----------------------------------------------------------------------------------------
-- How thumbnails are made
-----------------------------------------------------------------------------------------

section

variable [Scaler] {fs after : FileSystem} {source output : Path} {edge : Nat}

/-- A thumbnail that has been made was made of a picture, and is written where it goes. -/
theorem createThumbnail_eq_ok (made : createThumbnail fs source output edge = .ok after)
    : ∃ image bytes,
        fs.read source = .ok image
        ∧ Scaler.scaled? image edge = some bytes
        ∧ fs.write output bytes = .ok after := by
  simp only [createThumbnail] at made
  split at made
  next => cases made
  next image read =>
      split at made
      next => cases made
      next bytes scaled =>
          split at made
          next written =>
              cases made
              exact ⟨image, bytes, read, scaled, written⟩
          next => cases made

/-- A thumbnail that has been made can be made again without a change. -/
theorem createThumbnail_again
    (made : createThumbnail fs source (thumbnailPath source) edge = .ok after)
    : (∃ bytes, fs.Filled (thumbnailPath source) bytes after)
      ∧ createThumbnail after source (thumbnailPath source) edge = .ok after := by
  obtain ⟨image, bytes, read, scaled, written⟩ := createThumbnail_eq_ok made
  have filled := FileSystem.filled_of_write written
  have apart := (beside_thumbnailPath source).place fs.here
  have again := (filled.read_iff apart.symm image).mpr read
  refine ⟨⟨_, filled⟩, ?_⟩
  simp only [createThumbnail, again, scaled, FileSystem.write_write written]

end

end Image

-----------------------------------------------------------------------------------------
-- The image of an article
-----------------------------------------------------------------------------------------

section

variable [Image.Scaler] {settings : ThumbnailSettings} {dir source : Path}
  {image directory address : String} {manifest later : Manifest} {bench after : Bench}

/-- The thumbnail of an image is made and claimed under the name of the image, or an error is told
and nothing is done.
-/
theorem cover_cases (enabled : settings.enabled = true)
    (named : Path.ofReference? image dir = some source) (manifest : Manifest) (bench : Bench)
    : (∃ files,
        Image.createThumbnail bench.files source (Image.thumbnailPath source) settings.size
          = .ok files
        ∧ cover settings dir manifest image bench
          = (.ok (manifest.claimAs (Image.thumbnailPath source) source.publishedName true),
              ⟨files, bench.calls⟩))
      ∨ ∃ error,
          cover settings dir manifest image bench = (.error (.thumbnail error), bench) := by
  simp only [cover, named, enabled, if_true]
  cases made : Image.createThumbnail bench.files source (Image.thumbnailPath source)
    settings.size with
  | ok files =>
      have revised : Latex.revise (fun fs => Image.createThumbnail fs source
          (Image.thumbnailPath source) settings.size) bench = (.ok (), ⟨files, bench.calls⟩) :=
        Latex.revise_of_ok made
      exact .inl ⟨files, rfl, bind_of_ok ((adapt_eq_ok_iff _).mpr revised)⟩
  | error error =>
      have revised : Latex.revise (fun fs => Image.createThumbnail fs source
          (Image.thumbnailPath source) settings.size) bench = (.error error, bench) :=
        Latex.revise_of_error made
      exact .inr ⟨error, bind_of_error (adapt_of_error _ revised)⟩

/-- The image of an article is as it was, whatever comes of its thumbnail. -/
theorem read_iff_of_cover {result : Except CompileError (String × Manifest)}
    (enabled : settings.enabled = true) (named : Path.ofReference? image dir = some source)
    (done : cover settings dir manifest image bench = (result, after)) (bytes : List UInt8)
    : after.files.read source = .ok bytes ↔ bench.files.read source = .ok bytes := by
  rcases cover_cases enabled named manifest bench with ⟨files, made, covered⟩ | ⟨_, failed⟩
  · cases covered.symm.trans done
    obtain ⟨_, _, _, _, written⟩ := Image.createThumbnail_eq_ok made
    have apart := (Image.beside_thumbnailPath source).place bench.files.here
    exact (FileSystem.filled_of_write written).read_iff apart.symm bytes
  · cases failed.symm.trans done
    exact Iff.rfl

/-- What is had of a thumbnail that was made for an article: the image is as it was, the thumbnail
is all that was written, and it is a resource of its own.
-/
structure Covers (source : Path) (manifest : Manifest) (bench : Bench) (address : String)
    (later : Manifest) (after : Bench)
    : Prop where
  picture
    : ∃ picture, bench.files.read source = .ok picture ∧ after.files.read source = .ok picture
  written : ∃ bytes, bench.files.Filled (Image.thumbnailPath source) bytes after.files
  entries : later.entries = manifest.entries ++ [⟨Image.thumbnailPath source, address, true⟩]
  targets : (later.entries.map (·.target)).Nodup
  apart
    : ∀ resource ∈ later.entries,
        resource.source.place bench.files.here = source.place bench.files.here
        → resource.target ≠ address

/-- A thumbnail that is made for an article covers it, in a manifest that was made by claims. -/
theorem covers_of_cover (enabled : settings.enabled = true)
    (named : Path.ofReference? image dir = some source)
    (grown : Manifest.Grown { directory := directory } manifest)
    (done : cover settings dir manifest image bench = (.ok (address, later), after))
    : Covers source manifest bench address later after := by
  rcases cover_cases enabled named manifest bench with ⟨files, made, covered⟩ | ⟨error, failed⟩
  · obtain ⟨picture, _, read, _, written⟩ := Image.createThumbnail_eq_ok made
    have still := (read_iff_of_cover enabled named done picture).mpr read
    have apart := (Manifest.sound_empty directory).toApart.grown grown
    have claimed := apart.claimAs (Image.thumbnailPath source) source.publishedName true
    cases covered.symm.trans done
    refine ⟨⟨picture, read, still⟩, ⟨_, FileSystem.filled_of_write written⟩, rfl,
      claimed.nodup_targets, ?_⟩
    intro resource among led
    rcases List.mem_append.mp among with earlier | last
    · exact apart.target_ne_claimAs (Image.thumbnailPath source) source.publishedName true earlier
    · obtain rfl := List.mem_singleton.mp last
      exact absurd led ((Image.beside_thumbnailPath source).place bench.files.here)
  · cases failed.symm.trans done

/-- A thumbnail is never written over the image that it is made of: it goes beside it, whether
paths are texts or any octets. So the image of an article keeps what it holds, whatever comes of its
thumbnail; and if that is made, the two are different resources.
-/
theorem thumbnail_spares_image
    : (∀ source, Image.Beside source (Image.thumbnailPath source))
      ∧ (∀ octets,
          Image.Beside (.ofOctets octets) (Image.thumbnailIn .octets (.ofOctets octets)))
      ∧ (∀ source : Path,
          Image.thumbnailIn .octets (.ofOctets (utf8 source.text))
          = .ofOctets (utf8 (Image.thumbnailPath source).text))
      ∧ ∀ {settings : ThumbnailSettings} {dir source : Path} {image directory : String}
          {manifest : Manifest} {bench after : Bench}
          {result : Except CompileError (String × Manifest)},
          settings.enabled = true
          → Path.ofReference? image dir = some source
          → Manifest.Grown { directory := directory } manifest
          → cover settings dir manifest image bench = (result, after)
          → (∀ bytes, after.files.read source = .ok bytes ↔ bench.files.read source = .ok bytes)
            ∧ ∀ {address later},
                result = .ok (address, later)
                → Covers source manifest bench address later after := by
  refine ⟨Image.beside_thumbnailPath, fun octets => Image.beside_thumbnailIn .octets _,
    fun source => ?_, ?_⟩
  · rw [← Path.octets_path, ← Path.octets_path, Image.thumbnailIn_path]
  · intro settings dir source image directory manifest bench after result enabled named grown done
    exact ⟨read_iff_of_cover enabled named done,
      fun made => covers_of_cover enabled named grown (made ▸ done)⟩

end

/-- A GIF picture of one pixel. -/
def pixelBytes : List UInt8 :=
  utf8 "GIF89a" ++ [1, 0, 1, 0, 0x80, 0, 0, 0, 0, 0, 0xFF, 0xFF, 0xFF]
    ++ [0x2C, 0, 0, 0, 0, 1, 0, 1, 0, 0, 2, 2, 0x44, 1, 0, 0x3B]

/-- The picture on a desk of its own. -/
def pixelDesk : Bench where
  files := { here := [], entries := [(["pixel.gif"], .file pixelBytes false)] }

/-- The manifest of a note that shows the picture. -/
def pixelManifest : Manifest :=
  (extractResources (parse "![Pixel](file://pixel.gif)\n") "note" ⟨"."⟩).1

section

open scoped Publication.StandIns

/-- A note shows the picture and has it for its image: the picture stays, and its thumbnail is
published under another name.
-/
theorem thumbnail_spares_pixel
    : ∃ later after,
        cover {} ⟨"."⟩ pixelManifest "file://pixel.gif" pixelDesk
          = (.ok ("note/1_pixel.gif", later), after)
        ∧ after.files.read ⟨"./pixel.gif"⟩ = .ok pixelBytes
        ∧ Covers ⟨"./pixel.gif"⟩ pixelManifest pixelDesk "note/1_pixel.gif" later after := by
  have named : Path.ofReference? "file://pixel.gif" ⟨"."⟩ = some ⟨"./pixel.gif"⟩ := by
    decide +kernel
  have read : pixelDesk.files.read ⟨"./pixel.gif"⟩ = .ok pixelBytes := by
    decide +kernel
  have led : (cover {} ⟨"."⟩ pixelManifest "file://pixel.gif" pixelDesk).1.toOption.map (·.1)
      = some "note/1_pixel.gif" := by
    decide +kernel
  rcases done : cover {} ⟨"."⟩ pixelManifest "file://pixel.gif" pixelDesk with
    ⟨error | ⟨address, later⟩, after⟩
  · rw [done] at led
    cases led
  · rw [done] at led
    obtain rfl : address = "note/1_pixel.gif" := Option.some.inj led
    obtain ⟨still, covers⟩ := thumbnail_spares_image.2.2.2 rfl named
      (grown_extractResources _ "note" ⟨"."⟩) done
    exact ⟨later, after, rfl, (still pixelBytes).mpr read, covers rfl⟩

end

end Publication
