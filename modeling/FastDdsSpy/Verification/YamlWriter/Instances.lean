import FastDdsSpy.Verification.YamlWriter.KeyValues

/-! # What the YAML of an instance tells

The conversion from JSON keeps the structure of a document and the texts of its scalars, and
nothing else: scalars of different types with one text look the same. -/

namespace FastDdsSpy

open Json

variable {φ : Type*} (ds : DoubleSupport φ)

variable (nt : NumberText (JsonNumber φ))

end FastDdsSpy
