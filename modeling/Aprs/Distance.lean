/-!
Distances on the ellipsoid of the World Geodetic System of 1984, by the inverse method of Vincenty.
-/

namespace Aprs.Distance

/-- Half axes in metres. -/
def semiMajor : Float := 6378137.0

def semiMinor : Float := 6356752.314245

def flattening : Float := 1.0 / 298.257223563

def maxIterations : Nat := 40

def tolerance : Float := 1e-12

def notANumber : Float := 0.0 / 0.0

def radians (degrees : Float) : Float := degrees * (3.141592653589793 / 180.0)

/-- The latitude on the sphere that touches the ellipsoid. -/
def reducedLatitude (latitude : Float) : Float :=
  ((1.0 - flattening) * (radians latitude).tan).atan

/-- Sines and cosines of the two reduced latitudes, and the difference of the longitudes. -/
structure Course where
  sinU1 : Float
  cosU1 : Float
  sinU2 : Float
  cosU2 : Float
  difference : Float

/-- One step of the iteration: the arc between the points, the direction of the great circle, and
the next difference of the longitudes on the sphere. -/
structure Step where
  sinSigma : Float
  cosSigma : Float
  sigma : Float
  cosSqAlpha : Float
  cos2SigmaM : Float
  next : Float

namespace Course

def sinSigma (c : Course) (lambda : Float) : Float :=
  let x := c.cosU2 * lambda.sin
  let y := c.cosU1 * c.sinU2 - c.sinU1 * c.cosU2 * lambda.cos
  (x * x + y * y).sqrt

/-- Between points on the equator the middle of the arc has no latitude. -/
def step (c : Course) (lambda sinSigma : Float) : Step :=
  let f := flattening
  let cosSigma := c.sinU1 * c.sinU2 + c.cosU1 * c.cosU2 * lambda.cos
  let sigma := Float.atan2 sinSigma cosSigma
  let sinAlpha := c.cosU1 * c.cosU2 * lambda.sin / sinSigma
  let cosSqAlpha := 1.0 - sinAlpha * sinAlpha
  let cos2SigmaM :=
    if cosSqAlpha != 0.0 then cosSigma - 2.0 * c.sinU1 * c.sinU2 / cosSqAlpha else 0.0
  let k := f / 16.0 * cosSqAlpha * (4.0 + f * (4.0 - 3.0 * cosSqAlpha))
  let next :=
    c.difference +
      (1.0 - k) * f * sinAlpha *
        (sigma +
          k * sinSigma * (cos2SigmaM + k * cosSigma * (-1.0 + 2.0 * cos2SigmaM * cos2SigmaM)))
  ⟨sinSigma, cosSigma, sigma, cosSqAlpha, cos2SigmaM, next⟩

end Course

namespace Step

/-- Kilometres along the arc. -/
def kilometres (s : Step) : Float :=
  let a := semiMajor
  let b := semiMinor
  let uSq := s.cosSqAlpha * (a * a - b * b) / (b * b)
  let bigA := 1.0 + uSq / 16384.0 * (4096.0 + uSq * (-768.0 + uSq * (320.0 - 175.0 * uSq)))
  let bigB := uSq / 1024.0 * (256.0 + uSq * (-128.0 + uSq * (74.0 - 47.0 * uSq)))
  let deltaSigma :=
    bigB * s.sinSigma *
      (s.cos2SigmaM +
        bigB / 4.0 *
          (s.cosSigma * (-1.0 + 2.0 * s.cos2SigmaM * s.cos2SigmaM) -
            bigB / 6.0 * s.cos2SigmaM * (-3.0 + 4.0 * s.sinSigma * s.sinSigma) *
              (-3.0 + 4.0 * s.cos2SigmaM * s.cos2SigmaM)))
  b * bigA * (s.sigma - deltaSigma) / 1000.0

end Step

/-- Iterates until the longitude settles; points nearly opposite each other never do. -/
def iterate (c : Course) : Nat → Float → Float
  | 0, _ => notANumber
  | left + 1, lambda =>
    let sinSigma := c.sinSigma lambda
    if sinSigma == 0.0 then 0.0
    else
      let s := c.step lambda sinSigma
      if (s.next - lambda).abs ≤ tolerance then s.kilometres else iterate c left s.next

/-- Kilometres between two points given in degrees. -/
def kilometres (latitude1 longitude1 latitude2 longitude2 : Float) : Float :=
  let difference := radians (longitude1 - longitude2)
  let u1 := reducedLatitude latitude1
  let u2 := reducedLatitude latitude2
  iterate ⟨u1.sin, u1.cos, u2.sin, u2.cos, difference⟩ maxIterations difference

end Aprs.Distance
