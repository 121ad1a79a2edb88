import ShaderHeader.Proofs.Disk.Fitting
import ShaderHeader.Proofs.Generation.Outcome

/-!
# Repeated generations

A generation that went well finds a file in place of whatever there was, with the permission
bits that it gave it.  So it goes well again and changes nothing more, provided that it still
reads the same module and that its folder is still the same.
-/

namespace ShaderHeader

namespace Embedding

variable {embedding : Embedding} {site : Site} {disk : Disk} {report : Report}

/-- **Generating a header again changes nothing.**  If after a generation that went well the
module reads the same and the folder of the destination is the same directory, then a second
one has the same outcome in all: it goes well with the same report, tells the same events, and
leaves the very disk that the first one left. -/
theorem generate_generate (succeeded : (embedding.generate site disk).result = .ok report)
    (rereads : (embedding.generate site disk).disk.read site.directory embedding.source =
      disk.read site.directory embedding.source)
    (unmoved : (embedding.generate site disk).disk.locateDirectory site.directory
        embedding.destination.folder =
      disk.locateDirectory site.directory embedding.destination.folder) :
    embedding.generate site (embedding.generate site disk).disk =
      embedding.generate site disk := by
  obtain ⟨bytes, after, valid, readable, saved⟩ := saved_of_generate succeeded
  have first := generate_of_saved valid readable saved
  rw [first] at rereads unmoved
  have again := Disk.saveAtOnce_again saved unmoved
  rw [first, generate_of_saved valid (rereads.trans readable) again]

/-- A disk on which `d` is a link to the root. -/
def rootedDisk : Disk :=
  smallDisk (.link ⟨[0x2f]⟩)

/-- A link to a directory is replaced by a header with the directory's permission bits, which
the second generation finds and keeps. -/
theorem generate_generate_over_link :
    (small.generate smallSite rootedDisk).disk =
        rootedDisk.insert [[0x64]] (.file 0o755 (small.headerBytes [3, 2, 35, 7])) ∧
      small.generate smallSite (small.generate smallSite rootedDisk).disk =
        small.generate smallSite rootedDisk := by
  have valid : small.Valid := rfl
  have readable : rootedDisk.read smallSite.directory small.source = .ok [3, 2, 35, 7] := rfl
  have saved : rootedDisk.saveAtOnce smallSite small.destination
      (small.headerBytes [3, 2, 35, 7]) =
        .ok (rootedDisk.insert [[0x64]] (.file 0o755 (small.headerBytes [3, 2, 35, 7]))) := rfl
  have first := generate_of_saved valid readable saved
  refine ⟨congrArg Outcome.disk first, generate_generate (congrArg (·.result) first) ?_ ?_⟩
  · rw [first]
    rfl
  · rw [first]
    rfl

end Embedding

end ShaderHeader
