import Hamchat.Ardop.Galois

/-!
# The coder

`rs.c` and `berlekamp.c` of `src/ext/ardop1`, and `RSEncode` and `RSDecode` of
`ARDOPC.c`.  An array is a list that is read as zero behind its end, a loop that
fills an array is `tabulate`, and `npar` is the variable `NPAR`.
-/

namespace Hamchat
namespace Ardop

/-! ## Arrays -/

/-- An array that a loop fills entry by entry. -/
def tabulate (count : Nat) (entry : Nat → UInt8) : List UInt8 :=
  (List.range count).map entry

/-- A loop that adds up with `^=`. -/
def xorLoop (count : Nat) (term : Nat → UInt8) : UInt8 :=
  (List.range count).foldl (fun sum i => sum ^^^ term i) 0

/-- An array whose first entries are written. -/
def overwrite (array front : List UInt8) : List UInt8 :=
  front ++ array.drop front.length

/-! ## Polynomials -/

/-- `zero_poly` -/
def zeroPoly (npar : Nat) : List UInt8 :=
  tabulate (npar * 2) fun _ => 0

/-- `copy_poly` -/
def copyPoly (npar : Nat) (src : List UInt8) : List UInt8 :=
  tabulate (npar * 2) fun i => src.getD i 0

/-- `scale_poly` -/
def scalePoly (npar : Nat) (k : UInt8) (poly : List UInt8) : List UInt8 :=
  tabulate (npar * 2) fun i => gmult k (poly.getD i 0)

/-- `add_polys` -/
def addPolys (npar : Nat) (dst src : List UInt8) : List UInt8 :=
  tabulate (npar * 2) fun i => dst.getD i 0 ^^^ src.getD i 0

/-- `mul_z_poly` -/
def mulZPoly (npar : Nat) (src : List UInt8) : List UInt8 :=
  tabulate (npar * 2) fun i => if 0 < i then src.getD (i - 1) 0 else 0

/-- One round of the outer loop of `mult_polys`: the second factor is scaled,
shifted, and added to what is there. -/
def multPolysRound (npar : Nat) (p1 p2 dst : List UInt8) (i : Nat) :
    List UInt8 :=
  let scaled := tabulate (npar * 2 * 2) fun j =>
    if j < npar * 2 then gmult (p2.getD j 0) (p1.getD i 0) else 0
  let shifted := tabulate (npar * 2 * 2) fun j =>
    if i ≤ j then scaled.getD (j - i) 0 else 0
  tabulate (npar * 2 * 2) fun j => dst.getD j 0 ^^^ shifted.getD j 0

/-- `mult_polys` -/
def multPolys (npar : Nat) (p1 p2 : List UInt8) : List UInt8 :=
  (List.range (npar * 2)).foldl (multPolysRound npar p1 p2)
    (tabulate (npar * 2 * 2) fun _ => 0)

/-- One round of `compute_genpoly`, for the arrays `genpoly` and `tp1`. -/
def computeGenpolyRound (npar : Nat) (arrays : List UInt8 × List UInt8)
    (i : Nat) : List UInt8 × List UInt8 :=
  let tp := ((zeroPoly npar).set 0 (gexp i)).set 1 1
  let genpoly := overwrite arrays.1 (multPolys npar tp arrays.2)
  (genpoly, copyPoly npar genpoly)

/-- `compute_genpoly` -/
def computeGenpoly (npar : Nat) (genpoly : List UInt8) : List UInt8 :=
  ((List.range' 1 npar).foldl (computeGenpolyRound npar)
    (genpoly, (zeroPoly npar).set 0 1)).1

/-! ## Check bytes and syndromes -/

/-- One round of `encode_data`. -/
def encodeRound (npar : Nat) (genPoly lfsr : List UInt8) (byte : UInt8) :
    List UInt8 :=
  let dbyte := byte ^^^ lfsr.getD (npar - 1) 0
  tabulate npar fun j =>
    if 0 < j then lfsr.getD (j - 1) 0 ^^^ gmult (genPoly.getD j 0) dbyte
    else gmult (genPoly.getD 0 0) dbyte

/-- `encode_data`, which takes the last byte first. -/
def encodeData (npar : Nat) (genPoly msg : List UInt8) (nbytes : Nat) :
    List UInt8 :=
  (msg.take nbytes).reverse.foldl (encodeRound npar genPoly)
    (tabulate npar fun _ => 0)

/-- `decode_data` -/
def decodeData (npar : Nat) (synBytes data : List UInt8) (nbytes : Nat) :
    List UInt8 :=
  overwrite synBytes <| tabulate npar fun j =>
    (data.take nbytes).foldl (fun sum byte => byte ^^^ gmult (gexp (j + 1)) sum) 0

/-- `check_syndrome`: whether there is a syndrome that is not zero. -/
def checkSyndrome (npar : Nat) (synBytes : List UInt8) : Bool :=
  (List.range npar).any fun i => synBytes.getD i 0 ≠ 0

/-! ## The error locator -/

/-- `init_gamma` -/
def initGamma (npar : Nat) (erasureLocs : List Nat) : List UInt8 :=
  erasureLocs.foldl
    (fun gamma loc =>
      addPolys npar gamma (mulZPoly npar (scalePoly npar (gexp loc) gamma)))
    ((zeroPoly npar).set 0 1)

/-- `compute_discrepancy` -/
def computeDiscrepancy (lambda S : List UInt8) (L : Int) (n : Nat) : UInt8 :=
  xorLoop (L + 1).toNat fun i => gmult (lambda.getD i 0) (S.getD (n - i) 0)

/-- The variables of the loop of `Modified_Berlekamp_Massey`. -/
structure Massey where
  psi : List UInt8
  D : List UInt8
  L : Int
  k : Int

/-- One round of the loop of `Modified_Berlekamp_Massey`. -/
def masseyRound (npar : Nat) (synBytes : List UInt8) (state : Massey)
    (n : Nat) : Massey :=
  let d := computeDiscrepancy state.psi synBytes state.L n
  let state :=
    if d ≠ 0 then
      let psi2 := tabulate (npar * 2) fun i =>
        state.psi.getD i 0 ^^^ gmult d (state.D.getD i 0)
      if state.L < n - state.k then
        { psi := psi2
          D := tabulate (npar * 2) fun i => gmult (state.psi.getD i 0) (ginv d)
          L := n - state.k
          k := n - state.L }
      else
        { state with psi := psi2 }
    else
      state
  { state with D := mulZPoly npar state.D }

/-- `Modified_Berlekamp_Massey` without its last call: the polynomial
`Lambda`. -/
def modifiedBerlekampMassey (npar : Nat) (synBytes : List UInt8)
    (erasureLocs : List Nat) : List UInt8 :=
  let gamma := initGamma npar erasureLocs
  let nErasures := erasureLocs.length
  ((List.range' nErasures (npar - nErasures)).foldl (masseyRound npar synBytes)
    { psi := copyPoly npar gamma
      D := mulZPoly npar (copyPoly npar gamma)
      L := nErasures
      k := -1 }).psi

/-- `compute_modified_omega` -/
def computeModifiedOmega (npar : Nat) (lambda synBytes : List UInt8) :
    List UInt8 :=
  let product := multPolys npar lambda synBytes
  tabulate (npar * 2) fun i => if i < npar then product.getD i 0 else 0

/-- `Find_Roots`: the array `ErrorLocs`, `NErrors` entries long. -/
def findRoots (npar : Nat) (lambda : List UInt8) : List Nat :=
  ((List.range' 1 255).filter fun r =>
    xorLoop (npar + 1) (fun k => gmult (gexp (k * r % 255)) (lambda.getD k 0)) = 0
    ).map fun r => 255 - r

/-! ## Correction -/

/-- `err` for the error location `i`. -/
def errorMagnitude (npar : Nat) (lambda omega : List UInt8) (i : Nat) : UInt8 :=
  let num := xorLoop (npar * 2) fun j =>
    gmult (omega.getD j 0) (gexp ((255 - i) * j % 255))
  -- The loop visits the odd places only.
  let denom := xorLoop (npar * 2) fun j =>
    if j % 2 = 1 then
      gmult (lambda.getD j 0) (gexp ((255 - i) * (j - 1) % 255))
    else 0
  gmult num (ginv denom)

/-- `codeword[csize-i-1] ^= err` for one error location. -/
def correctError (npar : Nat) (lambda omega : List UInt8) (csize : Nat)
    (codeword : List UInt8) (i : Nat) : List UInt8 :=
  codeword.set (csize - i - 1)
    (codeword.getD (csize - i - 1) 0 ^^^ errorMagnitude npar lambda omega i)

/-- `correct_errors_erasures`: whether it returns one, the codeword, and
`NErrors`. -/
def correctErrorsErasures (npar maxErrors : Nat) (synBytes codeword : List UInt8)
    (csize : Nat) (erasures : List Nat) : Bool × List UInt8 × Nat :=
  let lambda := modifiedBerlekampMassey npar synBytes erasures
  let omega := computeModifiedOmega npar lambda synBytes
  let errorLocs := findRoots npar lambda
  if errorLocs.length ≤ maxErrors ∧ 0 < errorLocs.length then
    if errorLocs.any fun loc => csize ≤ loc then
      (false, codeword, errorLocs.length)
    else
      (true, errorLocs.foldl (correctError npar lambda omega csize) codeword,
        errorLocs.length)
  else
    (false, codeword, errorLocs.length)

/-! ## The functions that the frames use -/

/-- The variables that the coder keeps between its calls. -/
structure Coder where
  NPAR : Int
  MaxErrors : Nat
  genPoly : List UInt8
  synBytes : List UInt8
  NErrors : Nat

/-- The variables when the program starts. -/
def Coder.initial : Coder where
  NPAR := -1
  MaxErrors := 0
  genPoly := []
  synBytes := []
  NErrors := 0

/-- `if (NPAR != RSLen)`: the constants are computed for another number of check
bytes. -/
def Coder.setLength (coder : Coder) (rsLen : Nat) : Coder :=
  if coder.NPAR ≠ rsLen then
    { coder with
      NPAR := rsLen
      MaxErrors := rsLen / 2
      genPoly := computeGenpoly rsLen coder.genPoly }
  else
    coder

/-- `RSEncode`: the check bytes. -/
def rsEncode (coder : Coder) (bytToRS : List UInt8) (rsLen : Nat) :
    List UInt8 × Coder :=
  let padLength := 255 - (bytToRS.length + rsLen)
  let coder := coder.setLength rsLen
  let padded := List.replicate padLength 0 ++ bytToRS
  (encodeData rsLen coder.genPoly padded (255 - rsLen), coder)

/-- What `RSDecode` returns and leaves behind. -/
structure RSResult where
  /-- The value of the function. -/
  frameOK : Bool
  blnRSOK : Bool
  bytRcv : List UInt8
  coder : Coder

/-- `RSDecode` -/
def rsDecode (coder : Coder) (bytRcv : List UInt8) (checkLen : Nat) : RSResult :=
  let length := bytRcv.length
  let dataLen := length - checkLen
  if 255 < length ∨ length < 1 + checkLen then
    { frameOK := false, blnRSOK := false, bytRcv, coder }
  else
    let coder := coder.setLength checkLen
    -- The data reversed, the padding, and the check bytes reversed.
    let intTemp := (bytRcv.take dataLen).reverse ++
      List.replicate (255 - length) 0 ++ (bytRcv.drop dataLen).reverse
    let synBytes := decodeData checkLen coder.synBytes intTemp 255
    let coder := { coder with synBytes }
    if checkSyndrome checkLen synBytes then
      let (corrected, codeword, nErrors) :=
        correctErrorsErasures checkLen coder.MaxErrors synBytes intTemp 255 []
      let coder := { coder with NErrors := nErrors }
      if corrected then
        { frameOK := true
          blnRSOK := false
          bytRcv := (codeword.take dataLen).reverse ++
            (codeword.drop (255 - checkLen)).reverse
          coder }
      else
        { frameOK := false, blnRSOK := false, bytRcv, coder }
    else
      { frameOK := true, blnRSOK := true, bytRcv, coder }

end Ardop
end Hamchat
