import DocumentQa.Python.Text

/-!
# SHA-256

The digest of a text's UTF-8 bytes, on words kept below `2 ^ 32`, and its hexadecimal text.
-/

namespace Sha256

def word (n : Nat) : Nat :=
  n % 0x100000000

def rotr (x n : Nat) : Nat :=
  word (x >>> n ||| x <<< (32 - n))

def choose (x y z : Nat) : Nat :=
  (x &&& y) ^^^ ((0xFFFFFFFF - x) &&& z)

def majority (x y z : Nat) : Nat :=
  (x &&& y) ^^^ (x &&& z) ^^^ (y &&& z)

def roundConstants : List Nat :=
  [0x428a2f98, 0x71374491, 0xb5c0fbcf, 0xe9b5dba5, 0x3956c25b, 0x59f111f1, 0x923f82a4, 0xab1c5ed5,
    0xd807aa98, 0x12835b01, 0x243185be, 0x550c7dc3, 0x72be5d74, 0x80deb1fe, 0x9bdc06a7, 0xc19bf174,
    0xe49b69c1, 0xefbe4786, 0x0fc19dc6, 0x240ca1cc, 0x2de92c6f, 0x4a7484aa, 0x5cb0a9dc, 0x76f988da,
    0x983e5152, 0xa831c66d, 0xb00327c8, 0xbf597fc7, 0xc6e00bf3, 0xd5a79147, 0x06ca6351, 0x14292967,
    0x27b70a85, 0x2e1b2138, 0x4d2c6dfc, 0x53380d13, 0x650a7354, 0x766a0abb, 0x81c2c92e, 0x92722c85,
    0xa2bfe8a1, 0xa81a664b, 0xc24b8b70, 0xc76c51a3, 0xd192e819, 0xd6990624, 0xf40e3585, 0x106aa070,
    0x19a4c116, 0x1e376c08, 0x2748774c, 0x34b0bcb5, 0x391c0cb3, 0x4ed8aa4a, 0x5b9cca4f, 0x682e6ff3,
    0x748f82ee, 0x78a5636f, 0x84c87814, 0x8cc70208, 0x90befffa, 0xa4506ceb, 0xbef9a3f7, 0xc67178f2]

def initial : List Nat :=
  [0x6a09e667, 0xbb67ae85, 0x3c6ef372, 0xa54ff53a, 0x510e527f, 0x9b05688c, 0x1f83d9ab, 0x5be0cd19]

/-- One more word in front of a schedule kept in reverse. -/
def extend (ws : List Nat) : List Nat :=
  let w (i : Nat) := ws.getD i 0
  let sigma0 := rotr (w 14) 7 ^^^ rotr (w 14) 18 ^^^ w 14 >>> 3
  let sigma1 := rotr (w 1) 17 ^^^ rotr (w 1) 19 ^^^ w 1 >>> 10
  word (w 15 + sigma0 + w 6 + sigma1) :: ws

/-- The sixty-four words of a block. -/
def schedule (block : List Nat) : List Nat :=
  ((List.replicate 48 ()).foldl (fun ws _ => extend ws) block.reverse).reverse

/-- One round of the compression function. -/
def round (s : List Nat) (kw : Nat × Nat) : List Nat :=
  match s with
  | [a, b, c, d, e, f, g, h] =>
    let t1 := h + (rotr e 6 ^^^ rotr e 11 ^^^ rotr e 25) + choose e f g + kw.1 + kw.2
    let t2 := (rotr a 2 ^^^ rotr a 13 ^^^ rotr a 22) + majority a b c
    [word (t1 + t2), a, b, c, word (d + t1), e, f, g]
  | s => s

def compress (s : List Nat) (block : List Nat) : List Nat :=
  List.zipWith (fun x y => word (x + y)) s ((roundConstants.zip (schedule block)).foldl round s)

/-- Big-endian digits of `n` to the base `2 ^ bits`. -/
def bigEndian (bits : Nat) : Nat → Nat → List Nat
  | 0, _ => []
  | count + 1, n => (n >>> (bits * count)) % (1 <<< bits) :: bigEndian bits count n

/-- The message behind a one bit, zeros and its length in bits. -/
def pad (bytes : List Nat) : List Nat :=
  bytes ++ 0x80 :: (List.replicate ((119 - bytes.length % 64) % 64) 0 ++ bigEndian 8 8 (8 * bytes.length))

/-- The words of the message. -/
def words : List Nat → List Nat
  | a :: b :: c :: d :: r => (a <<< 24 ||| b <<< 16 ||| c <<< 8 ||| d) :: words r
  | _ => []

def blocks : Nat → List Nat → List (List Nat)
  | 0, _ => []
  | fuel + 1, ws => if ws = [] then [] else ws.take 16 :: blocks fuel (ws.drop 16)

def digest (bytes : List Nat) : List Nat :=
  let ws := words (pad bytes)
  (blocks ws.length ws).foldl compress initial

def hexChar (n : Nat) : Char :=
  if n < 10 then Char.ofNat (48 + n) else Char.ofNat (87 + n)

/-- `hashlib.sha256(text.encode("utf-8")).hexdigest()`. -/
def hexdigest (text : String) : String :=
  let bytes := (text.toList.flatMap String.utf8EncodeChar).map UInt8.toNat
  String.ofList ((digest bytes).flatMap fun w => (bigEndian 4 8 w).map hexChar)

/-! ## The shape of a digest -/

theorem bigEndian_length (bits count n : Nat) : (bigEndian bits count n).length = count := by
  induction count with
  | zero => rfl
  | succ count ih => rw [bigEndian, List.length_cons, ih]

theorem round_length {s : List Nat} (h : s.length = 8) (kw : Nat × Nat) : (round s kw).length = 8 := by
  unfold round
  split
  · rfl
  · exact h

theorem compress_length {s : List Nat} (h : s.length = 8) (block : List Nat) : (compress s block).length = 8 := by
  have rounds : ∀ kws : List (Nat × Nat), ∀ t : List Nat, t.length = 8 → (kws.foldl round t).length = 8 := by
    intro kws
    induction kws with
    | nil => exact fun _ ht => ht
    | cons kw kws ih => exact fun t ht => ih (round t kw) (round_length ht kw)
  rw [compress, List.length_zipWith, rounds _ s h, h]
  rfl

theorem digest_length (bytes : List Nat) : (digest bytes).length = 8 := by
  have all : ∀ bs : List (List Nat), ∀ t : List Nat, t.length = 8 → (bs.foldl compress t).length = 8 := by
    intro bs
    induction bs with
    | nil => exact fun _ ht => ht
    | cons b bs ih => exact fun t ht => ih (compress t b) (compress_length ht b)
  exact all _ initial rfl

theorem hexChar_isHex {n : Nat} (h : n < 16) :
    (('a' ≤ hexChar n && hexChar n ≤ 'f') || ('0' ≤ hexChar n && hexChar n ≤ '9')) = true := by
  have all : ∀ k : Fin 16,
      (('a' ≤ hexChar k.val && hexChar k.val ≤ 'f') || ('0' ≤ hexChar k.val && hexChar k.val ≤ '9')) = true := by decide
  exact all ⟨n, h⟩

theorem bigEndian_lt {bits count n d : Nat} (h : d ∈ bigEndian bits count n) : d < 1 <<< bits := by
  induction count with
  | zero => cases h
  | succ count ih =>
    rw [bigEndian, List.mem_cons] at h
    rcases h with rfl | h
    · apply Nat.mod_lt
      rw [Nat.one_shiftLeft]
      exact Nat.two_pow_pos bits
    · exact ih h

/-- **A digest is sixty-four lower-case hexadecimal digits.** -/
theorem isSha256Text_hexdigest (text : String) : Python.isSha256Text (hexdigest text) = true := by
  have width : ∀ ws : List Nat, (ws.flatMap fun w => (bigEndian 4 8 w).map hexChar).length = 8 * ws.length := by
    intro ws
    induction ws with
    | nil => rfl
    | cons w ws ih =>
      rw [List.flatMap_cons, List.length_append, ih, List.length_map, bigEndian_length, List.length_cons]
      omega
  simp only [Python.isSha256Text, hexdigest, String.toList_ofList, Bool.and_eq_true, decide_eq_true_eq]
  constructor
  · rw [width, digest_length]
  · rw [List.all_eq_true]
    intro c hc
    obtain ⟨w, -, hc⟩ := List.mem_flatMap.1 hc
    obtain ⟨d, hd, rfl⟩ := List.mem_map.1 hc
    exact hexChar_isHex (bigEndian_lt hd)

/-! ## Telling digests apart -/

/-- The number that big-endian digits write. -/
def fromDigits (bits : Nat) (start : Nat) (digits : List Nat) : Nat :=
  digits.foldl (fun value d => value * (1 <<< bits) + d) start

theorem shiftLeft_add (a b : Nat) : 1 <<< (a + b) = (1 <<< a) * (1 <<< b) := by
  rw [Nat.one_shiftLeft, Nat.one_shiftLeft, Nat.one_shiftLeft, Nat.pow_add]

theorem fromDigits_start (bits start : Nat) (digits : List Nat) :
    fromDigits bits start digits = start * (1 <<< (bits * digits.length)) + fromDigits bits 0 digits := by
  induction digits generalizing start with
  | nil =>
    rw [List.length_nil, Nat.mul_zero, Nat.shiftLeft_zero, Nat.mul_one]
    rfl
  | cons d digits ih =>
    have later : ∀ s, fromDigits bits s (d :: digits) = fromDigits bits (s * (1 <<< bits) + d) digits := fun _ => rfl
    rw [later, later, ih, ih (0 * (1 <<< bits) + d), List.length_cons, Nat.mul_succ, shiftLeft_add, Nat.zero_mul,
      Nat.zero_add, Nat.add_mul, Nat.mul_assoc, Nat.mul_comm (1 <<< bits), Nat.add_assoc]

/-- Digits tell numbers apart. -/
theorem fromDigits_bigEndian (bits count n : Nat) :
    fromDigits bits 0 (bigEndian bits count n) = n % (1 <<< (bits * count)) := by
  induction count with
  | zero =>
    rw [Nat.mul_zero, Nat.shiftLeft_zero, Nat.mod_one]
    rfl
  | succ count ih =>
    have first : fromDigits bits 0 (bigEndian bits (count + 1) n) =
        fromDigits bits (0 * (1 <<< bits) + (n >>> (bits * count)) % (1 <<< bits)) (bigEndian bits count n) := rfl
    rw [first, fromDigits_start, ih, bigEndian_length, Nat.zero_mul, Nat.zero_add, Nat.mul_succ, shiftLeft_add,
      Nat.mod_mul, Nat.shiftRight_eq_div_pow, ← Nat.one_shiftLeft, Nat.add_comm, Nat.mul_comm (1 <<< (bits * count))]

theorem bigEndian_injective {bits count n m : Nat} (hn : n < 1 <<< (bits * count)) (hm : m < 1 <<< (bits * count))
    (h : bigEndian bits count n = bigEndian bits count m) : n = m := by
  have values := fromDigits_bigEndian bits count n
  rw [h, fromDigits_bigEndian, Nat.mod_eq_of_lt hn, Nat.mod_eq_of_lt hm] at values
  exact values.symm

theorem hexChar_injective {n m : Nat} (hn : n < 16) (hm : m < 16) (h : hexChar n = hexChar m) : n = m := by
  have all : ∀ a b : Fin 16, hexChar a.val = hexChar b.val → a.val = b.val := by decide
  exact all ⟨n, hn⟩ ⟨m, hm⟩ h

/-- The words of a digest are words. -/
theorem digest_lt {bytes : List Nat} {w : Nat} (h : w ∈ digest bytes) : w < 1 <<< 32 := by
  have sums : ∀ s t : List Nat, ∀ w ∈ List.zipWith (fun x y => word (x + y)) s t, w < 1 <<< 32 := by
    intro s
    induction s with
    | nil =>
      intro t w mem
      rw [List.zipWith_nil_left] at mem
      cases mem
    | cons x s ih =>
      intro t w mem
      cases t with
      | nil => cases mem
      | cons y t =>
        rw [List.zipWith_cons_cons, List.mem_cons] at mem
        rcases mem with rfl | mem
        · exact Nat.mod_lt _ (by decide)
        · exact ih t w mem
  have all : ∀ bs : List (List Nat), ∀ t : List Nat, (∀ w ∈ t, w < 1 <<< 32) → ∀ w ∈ bs.foldl compress t, w < 1 <<< 32 := by
    intro bs
    induction bs with
    | nil => exact fun _ ht => ht
    | cons b bs ih => exact fun t _ => ih (compress t b) (sums _ _)
  have start : initial.all (fun w => w < 1 <<< 32) = true := by decide
  exact all _ initial (fun w mem => of_decide_eq_true (List.all_eq_true.1 start w mem)) w h

/-- The bytes of a text. -/
def textBytes (text : String) : List Nat :=
  (text.toList.flatMap String.utf8EncodeChar).map UInt8.toNat

/-- **Digests whose texts agree in eight digits** agree in their first word. -/
theorem hexdigest_head {a b : String} (h : (hexdigest a).toList.take 8 = (hexdigest b).toList.take 8) :
    (digest (textBytes a)).headD 0 = (digest (textBytes b)).headD 0 := by
  have first : ∀ text : String, (hexdigest text).toList.take 8 =
      (bigEndian 4 8 ((digest (textBytes text)).headD 0)).map hexChar ∧ (digest (textBytes text)).headD 0 < 1 <<< 32 := by
    intro text
    have whole : (hexdigest text).toList = (digest (textBytes text)).flatMap fun w => (bigEndian 4 8 w).map hexChar := by
      rw [hexdigest, String.toList_ofList]
      rfl
    rw [whole]
    cases words : digest (textBytes text) with
    | nil =>
      have length := digest_length (textBytes text)
      rw [words] at length
      cases length
    | cons w ws =>
      rw [List.flatMap_cons, List.headD_cons]
      constructor
      · apply List.take_left'
        rw [List.length_map, bigEndian_length]
      · apply digest_lt
        rw [words]
        exact List.mem_cons_self
  obtain ⟨textA, smallA⟩ := first a
  obtain ⟨textB, smallB⟩ := first b
  rw [textA, textB] at h
  rw [show 1 <<< 32 = 1 <<< (4 * 8) from rfl] at smallA smallB
  apply bigEndian_injective smallA smallB
  have digits : ∀ xs ys : List Nat, (∀ x ∈ xs, x < 16) → (∀ y ∈ ys, y < 16) → xs.map hexChar = ys.map hexChar → xs = ys := by
    intro xs
    induction xs with
    | nil =>
      intro ys _ _ same
      rw [List.map_nil, eq_comm, List.map_eq_nil_iff] at same
      exact same.symm
    | cons x xs ih =>
      intro ys hx hy same
      cases ys with
      | nil => cases same
      | cons y ys =>
        rw [List.map_cons, List.map_cons, List.cons.injEq] at same
        rw [hexChar_injective (hx x List.mem_cons_self) (hy y List.mem_cons_self) same.1,
          ih ys (fun x mem => hx x (List.mem_cons_of_mem _ mem)) (fun y mem => hy y (List.mem_cons_of_mem _ mem)) same.2]
  exact digits _ _ (fun x mem => bigEndian_lt mem) (fun y mem => bigEndian_lt mem) h

/-- The bytes of an ASCII text are its characters. -/
theorem textBytes_ascii {text : String} (h : ∀ c ∈ text.toList, c.toNat < 128) : textBytes text = text.toList.map Char.toNat := by
  rw [textBytes]
  generalize text.toList = cs at h
  induction cs with
  | nil => rfl
  | cons c cs ih =>
    have small : c.toNat < 128 := h c List.mem_cons_self
    have single : c.utf8Size = 1 := by
      rw [Char.utf8Size_eq_one_iff, UInt32.le_iff_toNat_le]
      show c.toNat ≤ 127
      omega
    have byte : (c.val.toUInt8).toNat = c.toNat := by
      rw [UInt32.toNat_toUInt8]
      show c.toNat % 256 = c.toNat
      omega
    rw [List.flatMap_cons, List.map_append, ih fun c mem => h c (List.mem_cons_of_mem _ mem),
      String.utf8EncodeChar_eq_singleton single, List.map_cons, List.map_cons, byte]
    rfl

end Sha256
