import KeySearch.Bytes

/-! The elliptic curve `y² = x³ + 7` over the field of `fieldSize` elements, in the numbers that
its standard fixes (secp256k1). Points are kept in Jacobian coordinates, where `(x, y, z)` stands
for the affine point `(x / z², y / z³)` and `z = 0` for the neutral element, so that only the last
step divides. A point's compressed form is one byte for the parity of `y` and then `x`. -/

namespace KeySearch.Curve.Secp256k1

def fieldSize : Nat := 0xfffffffffffffffffffffffffffffffffffffffffffffffffffffffefffffc2f

/-- The count of points, the neutral element included. -/
def order : Nat := 0xfffffffffffffffffffffffffffffffebaaedce6af48a03bbfd25e8cd0364141

/-! ### Field -/

def sub (a b : Nat) : Nat := (a + fieldSize - b) % fieldSize

def mul (a b : Nat) : Nat := a * b % fieldSize

/-- The power of a field element, by squaring. -/
def pow (a n : Nat) : Nat :=
  if n = 0 then 1
  else
    let root := pow a (n / 2)
    let square := mul root root
    if n % 2 = 1 then mul square a else square

/-- The reciprocal of a field element other than zero, by the little theorem of Fermat. -/
def inverse (a : Nat) : Nat := pow a (fieldSize - 2)

/-! ### Points -/

structure Point where
  (x y z : Nat)
  deriving DecidableEq

namespace Point

def neutral : Point := ⟨1, 1, 0⟩

def generator : Point where
  x := 0x79be667ef9dcbbac55a06295ce870b07029bfcdb2dce28d959f2815b16f81798
  y := 0x483ada7726a3c4655da4fbfc0e1108a8fd17b448a68554199c47d08ffb10d4b8
  z := 1

def double (p : Point) : Point :=
  let square := mul p.y p.y
  let s := 4 * mul p.x square % fieldSize
  let m := 3 * mul p.x p.x % fieldSize
  let x := sub (mul m m) (2 * s % fieldSize)
  ⟨x, sub (mul m (sub s x)) (8 * mul square square % fieldSize), 2 * mul p.y p.z % fieldSize⟩

/-- The sum of two points; equal points are doubled and opposite ones cancel. -/
def add (p q : Point) : Point :=
  if p.z = 0 then q
  else if q.z = 0 then p
  else
    let pz := mul p.z p.z
    let qz := mul q.z q.z
    let u := mul p.x qz
    let v := mul p.y (mul q.z qz)
    let dx := sub (mul q.x pz) u
    let dy := sub (mul q.y (mul p.z pz)) v
    if dx = 0 then
      if dy = 0 then p.double else neutral
    else
      let square := mul dx dx
      let cube := mul dx square
      let w := mul u square
      let x := sub (sub (mul dy dy) cube) (2 * w % fieldSize)
      ⟨x, sub (mul dy (sub w x)) (mul v cube), mul dx (mul p.z q.z)⟩

/-- The sum of `k` copies of a point, by doubling. -/
def scale (k : Nat) (p : Point) : Point :=
  if k = 0 then neutral
  else
    let twice := (scale (k / 2) p).double
    if k % 2 = 1 then twice.add p else twice

/-- The two affine coordinates. -/
def affine (p : Point) : Nat × Nat :=
  let r := inverse p.z
  let square := mul r r
  (mul p.x square, mul p.y (mul r square))

/-- The parity of `y` as `02` or `03`, then `x` in 32 bytes. -/
def compress (p : Point) : Bytes :=
  let (x, y) := p.affine
  (if y % 2 = 0 then 0x02 else 0x03) :: Bytes.ofNat 32 x

@[simp] theorem length_compress (p : Point) : p.compress.length = 33 := by simp [compress]

end Point

end KeySearch.Curve.Secp256k1
