import MaterialLowering.Numeric.Single

/-!
# Elementary functions

The functions that no finite computation on units gives are evaluated in double precision and
rounded to single precision.
-/

namespace MaterialLowering.Numeric.Single

private def viaDouble (f : Float → Float) (x : Single) : Single :=
  ofDouble ⟨(f (Float.ofBits x.toDouble.bits)).toBits⟩

def pow (x y : Single) : Single :=
  viaDouble (fun v => Float.pow v (Float.ofBits y.toDouble.bits)) x

/-- The natural logarithm. -/
def log (x : Single) : Single := viaDouble Float.log x

def sin (x : Single) : Single := viaDouble Float.sin x

def cos (x : Single) : Single := viaDouble Float.cos x

def tan (x : Single) : Single := viaDouble Float.tan x

def asin (x : Single) : Single := viaDouble Float.asin x

def acos (x : Single) : Single := viaDouble Float.acos x

def atan (x : Single) : Single := viaDouble Float.atan x

end MaterialLowering.Numeric.Single
