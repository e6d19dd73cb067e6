import TexToc.Outline.Splice
import TexToc.Outline.Nesting
import TexToc.Outline.Numbering

/-!
Arranging the forests of a run into its outline.

The outline of a run is the root file's forest with the forests of included files spliced
in, nested (entries under sections, then sections by rank) and numbered (floats, then
sections, as the configuration says). A run that does not merge included files keeps them
as leaves and numbers nothing.

* `arrange`: the outline.
-/

namespace TexToc.Outline

/-- The outline of a run: `es` is the root file's forest, `forests` the forests of all files
read, and `root` the file never expanded again. -/
def arrange (cfg : Config) (forests : Forests) (es : List Entry) (root : Option String) :
    List Entry :=
  let merge := cfg.mergeIncluded
  let spliced := if merge then splice forests es root else es
  let nested := nestSections cfg (nestNonSections spliced)
  let floats := if merge && cfg.numberFloats then numberFloats nested else nested
  if merge && cfg.numberSections then numberSections cfg floats else floats

end TexToc.Outline
