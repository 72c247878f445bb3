/-
Tensors on their way over HTTP: `tensor_to_payload` and `tensor_from_payload`.

A tensor is its dtype, its shape and its elements as bit patterns; the payload
has the shape, the name of the dtype and the bytes of the elements, the low
byte first, in base64. The dtypes, their names and what `np.dtype` reads in a
text are an argument (`DTypes`); a negative dimension, which numpy would work
out, is left out.

A tensor arrives as it was sent (`tensor_codec`).
-/
import Blitzwing.HttpChain
import Blitzwing.Lib.Base64

namespace Blitzwing

open Base64 (Byte byte b64encode b64decode)

/-- The dtypes that both torch and numpy have. -/
structure DTypes where
  DType : Type
  itemsize : DType → Nat
  itemsize_pos (dtype : DType) : 0 < itemsize dtype
  /-- `str(arr.dtype)` -/
  str : DType → String
  /-- `np.dtype`, or the text of the error; a dtype that torch has not is one, too. -/
  npDtype : String → Except String DType

def numel (shape : List Nat) : Nat := shape.foldr (· * ·) 1

structure Tensor (dtypes : DTypes) where
  dtype : dtypes.DType
  shape : List Nat
  elements : List (Fin (256 ^ dtypes.itemsize dtype))
  complete : elements.length = numel shape

structure TensorPayload where
  b64 : List Char
  shape : List Nat
  dtype : String

/-! ## Elements and bytes -/

/-- `n` in `w` bytes. -/
def littleEndian : Nat → Nat → List Byte
  | 0, _ => []
  | w + 1, n => byte n :: littleEndian w (n / 256)

def ofLittleEndian (bs : List Byte) : Nat := bs.foldr (fun b n => b.val + 256 * n) 0

@[simp] theorem length_littleEndian (w n : Nat) : (littleEndian w n).length = w := by
  induction w generalizing n with
  | zero => rfl
  | succ w ih => simp [littleEndian, ih]

theorem ofLittleEndian_littleEndian (w n : Nat) : ofLittleEndian (littleEndian w n) = n % 256 ^ w := by
  induction w generalizing n with
  | zero => simp [littleEndian, ofLittleEndian, Nat.mod_one]
  | succ w ih =>
    have hrest := ih (n / 256)
    rw [ofLittleEndian] at hrest ⊢
    rw [littleEndian, List.foldr_cons, hrest, Nat.pow_succ', Nat.mod_mul]
    rfl

/-- `arr.tobytes()` -/
def toBytes {w : Nat} (elements : List (Fin (256 ^ w))) : List Byte := elements.flatMap fun e => littleEndian w e.val

def element (w : Nat) (bs : List Byte) : Fin (256 ^ w) :=
  ⟨ofLittleEndian bs % 256 ^ w, Nat.mod_lt _ (Nat.pow_pos (by decide))⟩

/-- The first `n` elements of a buffer. -/
def fromBytes (w : Nat) : Nat → List Byte → List (Fin (256 ^ w))
  | 0, _ => []
  | n + 1, bs => element w (bs.take w) :: fromBytes w n (bs.drop w)

@[simp] theorem length_fromBytes (w n : Nat) (bs : List Byte) : (fromBytes w n bs).length = n := by
  induction n generalizing bs with
  | zero => rfl
  | succ n ih => simp [fromBytes, ih]

theorem length_toBytes {w : Nat} (elements : List (Fin (256 ^ w))) :
    (toBytes elements).length = w * elements.length := by
  induction elements with
  | nil => rfl
  | cons e elements ih =>
    rw [toBytes, List.flatMap_cons, List.length_append, length_littleEndian, ← toBytes, ih, List.length_cons,
      Nat.mul_succ, Nat.add_comm]

theorem fromBytes_toBytes {w : Nat} (elements : List (Fin (256 ^ w))) :
    fromBytes w elements.length (toBytes elements) = elements := by
  induction elements with
  | nil => rfl
  | cons e elements ih =>
    have hlen := length_littleEndian w e.val
    have helement : element w (littleEndian w e.val) = e := by
      refine Fin.ext ?_
      show ofLittleEndian (littleEndian w e.val) % 256 ^ w = e.val
      rw [ofLittleEndian_littleEndian, Nat.mod_mod, Nat.mod_eq_of_lt e.isLt]
    rw [List.length_cons, fromBytes, toBytes, List.flatMap_cons, List.take_left' hlen, List.drop_left' hlen, ← toBytes,
      ih, helement]

/-! ## The codec -/

inductive CodecError
  | base64 (e : Base64.DecodeError)
  | dtype (text : String)
  | bufferSize
  | reshape (size : Nat) (shape : List Nat)

/-- The texts of the exceptions. -/
def CodecError.text : CodecError → String
  | .base64 e => e.text
  | .dtype text => text
  | .bufferSize => "buffer size must be a multiple of element size"
  | .reshape size shape =>
    s!"cannot reshape array of size {size} into shape (" ++ String.intercalate "," (shape.map toString) ++
      (if shape.length = 1 then ",)" else ")")

variable {dtypes : DTypes}

def tensorToPayload (tensor : Tensor dtypes) : TensorPayload where
  b64 := b64encode (toBytes tensor.elements)
  shape := tensor.shape
  dtype := dtypes.str tensor.dtype

variable (dtypes)

def tensorFromPayload (payload : TensorPayload) : Except CodecError (Tensor dtypes) :=
  match b64decode payload.b64 with
  | .error e => .error (.base64 e)
  | .ok bytes =>
    match dtypes.npDtype payload.dtype with
    | .error text => .error (.dtype text)
    | .ok dtype =>
      if bytes.length % dtypes.itemsize dtype = 0 then
        let size := bytes.length / dtypes.itemsize dtype
        if h : size = numel payload.shape then
          .ok ⟨dtype, payload.shape, fromBytes (dtypes.itemsize dtype) size bytes, (length_fromBytes ..).trans h⟩
        else .error (.reshape size payload.shape)
      else .error .bufferSize

/-- The codec of a shard's process. Callers tell no exception of it from
another. -/
def tensorCodec : Codec (Tensor dtypes) TensorPayload where
  toPayload := tensorToPayload
  fromPayload payload := (tensorFromPayload dtypes payload).mapError fun e => .valueError e.text

variable {dtypes}

theorem tensorFromPayload_ok {payload : TensorPayload} {bytes : List Byte} (hbytes : b64decode payload.b64 = .ok bytes)
    {dtype : dtypes.DType} (hdtype : dtypes.npDtype payload.dtype = .ok dtype) {size : Nat}
    (hsize : bytes.length = dtypes.itemsize dtype * size) (hshape : size = numel payload.shape) :
    tensorFromPayload dtypes payload =
      .ok ⟨dtype, payload.shape, fromBytes (dtypes.itemsize dtype) size bytes, (length_fromBytes ..).trans hshape⟩ := by
  obtain rfl : size = bytes.length / dtypes.itemsize dtype := by
    rw [hsize, Nat.mul_div_cancel_left _ (dtypes.itemsize_pos dtype)]
  rw [tensorFromPayload, hbytes, hdtype]
  dsimp only
  rw [if_pos (by rw [hsize, Nat.mul_mod_right]), dif_pos hshape]

/-- What is accepted: base64 of as many bytes as the shape and the dtype take. -/
theorem tensorFromPayload_iff (payload : TensorPayload) : (∃ t, tensorFromPayload dtypes payload = .ok t) ↔
    ∃ dtype bytes, dtypes.npDtype payload.dtype = .ok dtype ∧ b64decode payload.b64 = .ok bytes ∧
      bytes.length = dtypes.itemsize dtype * numel payload.shape := by
  constructor
  · rintro ⟨t, ht⟩
    rw [tensorFromPayload] at ht
    split at ht
    · cases ht
    · next bytes hbytes =>
      split at ht
      · cases ht
      · next dtype hdtype =>
        split at ht
        · next hmod =>
          dsimp only at ht
          split at ht
          · next hshape =>
            refine ⟨dtype, bytes, hdtype, hbytes, ?_⟩
            rw [← hshape, Nat.mul_div_cancel' (Nat.dvd_of_mod_eq_zero hmod)]
          · cases ht
        · cases ht
  · rintro ⟨dtype, bytes, hdtype, hbytes, hlen⟩
    exact ⟨_, tensorFromPayload_ok hbytes hdtype hlen rfl⟩

/-- **The codec.** Where numpy reads its own names back, a tensor arrives as it
was sent, also where other characters got into its text; and a payload is
accepted just if its dtype is read and it is base64 of as many bytes as its
shape and dtype take. -/
theorem tensor_codec (hnames : ∀ dtype, dtypes.npDtype (dtypes.str dtype) = .ok dtype) :
    (∀ t, (tensorCodec dtypes).fromPayload ((tensorCodec dtypes).toPayload t) = .ok t) ∧
    (∀ (t : Tensor dtypes) (text : List Char), text.all (fun c => c.toNat < 128) = true →
      text.filter Base64.counts = ((tensorCodec dtypes).toPayload t).b64.filter Base64.counts →
      (tensorCodec dtypes).fromPayload { (tensorCodec dtypes).toPayload t with b64 := text } = .ok t) ∧
    ∀ payload, (∃ t, (tensorCodec dtypes).fromPayload payload = .ok t) ↔
      ∃ dtype bytes, dtypes.npDtype payload.dtype = .ok dtype ∧ b64decode payload.b64 = .ok bytes ∧
        bytes.length = dtypes.itemsize dtype * numel payload.shape := by
  have hsent : ∀ (t : Tensor dtypes) (text : List Char), b64decode text = .ok (toBytes t.elements) →
      (tensorCodec dtypes).fromPayload { tensorToPayload t with b64 := text } = .ok t := by
    intro t text htext
    obtain ⟨dtype, shape, elements, hcomplete⟩ := t
    have htext' : b64decode ({ tensorToPayload ⟨dtype, shape, elements, hcomplete⟩ with b64 := text } :
        TensorPayload).b64 = .ok (toBytes elements) := htext
    have harrives := tensorFromPayload_ok htext' (hnames dtype) (length_toBytes elements) hcomplete
    show Except.mapError _ (tensorFromPayload dtypes _) = _
    rw [harrives]
    simp only [fromBytes_toBytes]
    rfl
  refine ⟨fun t => hsent t _ (Base64.b64decode_b64encode _), fun t text hascii hfilter => hsent t text ?_,
    fun payload => ?_⟩
  · rw [b64decode, if_pos hascii, ← Base64.scan_filter, hfilter, Base64.scan_filter]
    exact Base64.scan_b64encode _ 0 0 0
  · rw [← tensorFromPayload_iff]
    show (∃ t, Except.mapError _ (tensorFromPayload dtypes payload) = .ok t) ↔ _
    cases tensorFromPayload dtypes payload <;> simp [Except.mapError]

/-! ## Floats -/

inductive FloatType
  | float16
  | float32
  | float64

namespace FloatType

def itemsize : FloatType → Nat
  | float16 => 2
  | float32 => 4
  | float64 => 8

def str : FloatType → String
  | float16 => "float16"
  | float32 => "float32"
  | float64 => "float64"

/-- Numpy's names for them, and its short ones. -/
def named (name : String) : Except String FloatType :=
  match name with
  | "float16" | "f2" => .ok float16
  | "float32" | "f4" => .ok float32
  | "float64" | "f8" => .ok float64
  | _ => .error s!"data type '{name}' not understood"

theorem itemsize_pos (dtype : FloatType) : 0 < dtype.itemsize := by
  cases dtype <;> decide

theorem named_str (dtype : FloatType) : named dtype.str = .ok dtype := by
  cases dtype <;> rfl

end FloatType

def floatTypes : DTypes where
  DType := FloatType
  itemsize := FloatType.itemsize
  itemsize_pos := FloatType.itemsize_pos
  str := FloatType.str
  npDtype := FloatType.named

/-- Two floats arrive, and so do the same bytes under numpy's short name. -/
theorem tensor_codec_floats :
    let tensor : Tensor floatTypes :=
      ⟨FloatType.float32, [2], [⟨1065353216, by decide⟩, ⟨3221225472, by decide⟩], rfl⟩
    let payload := (tensorCodec floatTypes).toPayload tensor
    payload.b64 = "AACAPwAAAMA=".toList ∧ payload.dtype = "float32" ∧ payload.shape = [2] ∧
      (tensorCodec floatTypes).fromPayload payload = .ok tensor ∧
      ∃ t, (tensorCodec floatTypes).fromPayload { payload with dtype := "f4" } = .ok t := by
  intro tensor payload
  obtain ⟨hsent, -, haccepted⟩ := @tensor_codec floatTypes FloatType.named_str
  refine ⟨by decide +kernel, rfl, rfl, hsent tensor,
    (haccepted _).2 ⟨FloatType.float32, toBytes tensor.elements, rfl, ?_, rfl⟩⟩
  exact Base64.b64decode_b64encode _

end Blitzwing
