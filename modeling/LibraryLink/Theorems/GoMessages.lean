import LibraryLink.ExchangeEncoding
import LibraryLink.GoMessages
import LibraryLink.General.Outcome

/-!
# The Go receiver and the requests of the Kotlin side

`Unmarshal` reads the fields that its own message declares, one after the other. The Kotlin side sends another message, in which the
method call is one level deeper, under the number that the Go receiver has for the method's name.
-/

namespace LibraryLink.Go

open Protobuf (Field)
open Outcome

/-! ## Numbers -/

/-- The loop over the groups of seven bits, from the one with a given index on. -/
theorem varintLoop_varint (n : Nat) : ∀ {i : Nat} (value : Nat) (rest : List UInt8), i < 10 → n < 128 ^ (10 - i) →
    varintLoop value (7 * i) (Protobuf.varint n ++ rest) = .ok (value + n * 2 ^ (7 * i), rest) := by
  induction n using Protobuf.varint.induct with
  | case1 n hn =>
    intro i value rest hi hlt
    have hbyte : (UInt8.ofNat n).toNat = n := by
      rw [UInt8.toNat_ofNat']
      omega
    have hlast : UInt8.ofNat n < 0x80 := by
      rw [UInt8.lt_iff_toNat_lt, hbyte]
      exact hn
    rw [Protobuf.varint_of_lt hn, List.singleton_append, varintLoop, if_neg (by omega), hbyte, Nat.mod_eq_of_lt hn]
    exact if_pos hlast
  | case2 n hn ih =>
    intro i value rest hi hlt
    have hbyte : (UInt8.ofNat (128 + n % 128)).toNat = 128 + n % 128 := by
      rw [UInt8.toNat_ofNat']
      omega
    have hmore : ¬UInt8.ofNat (128 + n % 128) < 0x80 := by
      rw [UInt8.lt_iff_toNat_lt, hbyte]
      exact Nat.not_lt.mpr (Nat.le_add_right _ _)
    have hi' : i + 1 < 10 := by
      by_contra hge
      have hone : 10 - i = 1 := by omega
      rw [hone, Nat.pow_one] at hlt
      exact hn hlt
    have hlt' : n / 128 < 128 ^ (10 - (i + 1)) := by
      refine Nat.div_lt_of_lt_mul ?_
      rw [← Nat.pow_succ']
      have hexp : 10 - (i + 1) + 1 = 10 - i := by omega
      rw [Nat.succ_eq_add_one, hexp]
      exact hlt
    rw [Protobuf.varint_of_le (Nat.not_lt.mp hn), List.cons_append, varintLoop, if_neg (by omega), hbyte]
    have hmod : (128 + n % 128) % 128 = n % 128 := by omega
    refine (if_neg hmore).trans ((ih (i := i + 1) _ rest hi' hlt').trans ?_)
    have hpow : 2 ^ (7 * (i + 1)) = 128 * 2 ^ (7 * i) := by
      rw [Nat.mul_add, Nat.pow_add]
      exact Nat.mul_comm _ _
    rw [hmod, hpow, Nat.add_assoc, ← Nat.mul_assoc, ← Nat.add_mul, Nat.mod_add_div']

/-- A number of 64 bits is read. -/
theorem readVarint_varint {n : Nat} (hn : n < 2 ^ 64) (rest : List UInt8) :
    readVarint (Protobuf.varint n ++ rest) = .ok (n, rest) := by
  have h := varintLoop_varint n (i := 0) 0 rest (by decide) (hn.trans (by decide))
  rw [Nat.mul_zero, Nat.pow_zero, Nat.mul_one, Nat.zero_add] at h
  exact h

/-- An index that is in the slice. -/
theorem postIndex_ok {l iNdEx n : Nat} (hl : l < 2 ^ 63) (hn : iNdEx + n ≤ l) : postIndex l iNdEx n = .ok (iNdEx + n) := by
  have hindex : (iNdEx + (n : Int)).bmod (2 ^ 64) = (iNdEx + n : Nat) := Int.bmod_eq_of_le (by omega) (by omega)
  unfold postIndex
  rw [hindex, if_neg (by omega), if_neg (by omega), Int.toNat_natCast]

/-- The bytes after their length are read. -/
theorem readBytes_ok {l : Nat} {b rest : List UInt8} (hl : l < 2 ^ 63) (hle : b.length + rest.length ≤ l) :
    readBytes l (Protobuf.varint b.length ++ (b ++ rest)) = .ok (b, rest) := by
  have hint : toInt b.length = b.length := Int.bmod_eq_of_le (by omega) (by omega)
  unfold readBytes
  refine bind_eq_ok.mpr ⟨_, readVarint_varint (by omega) _, ?_⟩
  dsimp only
  rw [hint, if_neg (by omega), List.length_append]
  refine bind_eq_ok.mpr ⟨_, postIndex_ok hl (by omega), ?_⟩
  rw [Nat.add_sub_cancel_left, List.take_left' rfl, List.drop_left' rfl]

/-! ## Fields -/

variable {M : Type} {calls : Nat} {g : Generated M}

/-- A field that a message declares with its number and wire type, and what reading it does. -/
inductive Known (fields : Int → Option (FieldCase M)) : Field → (M → Except Failure M) → Prop
  | bytes {number : Nat} {name : String} {put : M → List UInt8 → Except Failure M} (b : List UInt8) : 0 < number →
      number < 2 ^ 29 → fields number = some (.bytes name put) → Known fields ⟨number, .bytes b⟩ fun m => put m b
  | varint {number : Nat} {name : String} {put : M → Nat → M} (n : Nat) : 0 < number → number < 2 ^ 29 → n < 2 ^ 64 →
      fields number = some (.varint name put) → Known fields ⟨number, .varint n⟩ fun m => .ok (put m n)

/-- The number and the wire type of a key. -/
theorem key_eq {number wireType : Nat} (hnumber : number < 2 ^ 29) (hw : wireType < 8) :
    toInt32 (toUint64 (8 * number + wireType) / 8) = number ∧ toUint64 (8 * number + wireType) % 8 = wireType := by
  have hwire : toUint64 (8 * number + wireType) = 8 * number + wireType := Nat.mod_eq_of_lt (by omega)
  have hdiv : (8 * number + wireType) / 8 = number := by omega
  rw [hwire, hdiv]
  exact ⟨Int.bmod_eq_of_le (by omega) (by omega), by omega⟩

/-- A pass reads a field that is declared. -/
theorem unmarshalPass_encode {f : Field} {put : M → Except Failure M} (hf : Known g.fields f put) {l : Nat} (hl : l < 2 ^ 63) (m : M)
    {rest : List UInt8} (hle : (f.encode ++ rest).length ≤ l) :
    unmarshalPass calls g l m (f.encode ++ rest) = (put m).map fun m => (m, rest) := by
  cases hf with
  | @bytes number name put b hpos hnumber hcase =>
    obtain ⟨hnum, htype⟩ := key_eq hnumber (show 2 < 8 by decide)
    have hencode : (Field.encode ⟨number, .bytes b⟩) ++ rest =
        Protobuf.varint (8 * number + 2) ++ (Protobuf.varint b.length ++ (b ++ rest)) := by
      simp [Field.encode, Protobuf.Value.encode, Protobuf.Value.wireType]
    rw [hencode] at hle ⊢
    simp only [List.length_append] at hle
    unfold unmarshalPass
    rw [readVarint_varint (by omega)]
    show (if _ then _ else _) = _
    rw [hnum, htype, if_neg (by decide), if_neg (by omega), hcase]
    show (readBytes l (Protobuf.varint b.length ++ (b ++ rest)) >>= _) = _
    rw [readBytes_ok hl (by omega)]
    show (put m b >>= _) = (put m b).map _
    cases put m b <;> rfl
  | @varint number name put n hpos hnumber hn hcase =>
    obtain ⟨hnum, htype⟩ := key_eq hnumber (show 0 < 8 by decide)
    have hencode : (Field.encode ⟨number, .varint n⟩) ++ rest =
        Protobuf.varint (8 * number + 0) ++ (Protobuf.varint n ++ rest) := by
      simp [Field.encode, Protobuf.Value.encode, Protobuf.Value.wireType]
    rw [hencode]
    unfold unmarshalPass
    rw [readVarint_varint (by omega)]
    show (if _ then _ else _) = _
    rw [hnum, htype, if_neg (by decide), if_neg (by omega), hcase]
    show (readVarint (Protobuf.varint n ++ rest) >>= _) = _
    rw [readVarint_varint hn]
    rfl

/-- A pass where something is left. -/
theorem unmarshalLoop_succ (l fuel : Nat) (m : M) {dAtA : List UInt8} (h : dAtA ≠ []) :
    unmarshalLoop calls g l (fuel + 1) m dAtA =
      unmarshalPass calls g l m dAtA >>= fun out => unmarshalLoop calls g l fuel out.1 out.2 := by
  cases dAtA with
  | nil => exact absurd rfl h
  | cons b dAtA => rfl

/-- The loop reads the fields of a message that are all declared, one after the other. -/
theorem unmarshalLoop_encode {fs : List Field} {puts : List (M → Except Failure M)} (h : List.Forall₂ (Known g.fields) fs puts)
    {l : Nat} (hl : l < 2 ^ 63) : ∀ {fuel : Nat} (m : M), (Protobuf.encode fs).length ≤ l → (Protobuf.encode fs).length ≤ fuel →
    unmarshalLoop calls g l fuel m (Protobuf.encode fs) = puts.foldlM (fun m put => put m) m := by
  induction h with
  | nil =>
    intro fuel m _ _
    rw [Protobuf.encode_nil, unmarshalLoop]
    rfl
  | @cons f put fs puts hf _ ih =>
    intro fuel m hle hfuel
    have hpos : 0 < f.encode.length := by
      rw [Field.encode, List.length_append]
      exact Nat.add_pos_left (Protobuf.length_varint_pos _) _
    rw [Protobuf.encode_cons] at hle hfuel ⊢
    have hne : f.encode ++ Protobuf.encode fs ≠ [] :=
      List.append_ne_nil_of_left_ne_nil (List.ne_nil_of_length_pos hpos) _
    rw [List.length_append] at hfuel
    obtain ⟨fuel, rfl⟩ : ∃ fuel', fuel = fuel' + 1 := ⟨fuel - 1, by omega⟩
    rw [unmarshalLoop_succ l fuel m hne, unmarshalPass_encode hf hl m hle, List.foldlM_cons]
    rw [List.length_append] at hle
    cases put m with
    | error e => rfl
    | ok m' => exact ih m' (by omega) (by omega)

/-- `Unmarshal` of the fields of a message that are all declared. -/
theorem unmarshal_encode {fs : List Field} {puts : List (M → Except Failure M)} (h : List.Forall₂ (Known g.fields) fs puts)
    (hl : (Protobuf.encode fs).length < 2 ^ 63) (m : M) :
    unmarshal calls g m (Protobuf.encode fs) = puts.foldlM (fun m put => put m) m :=
  unmarshalLoop_encode h hl m (Nat.le_refl _) (Nat.le_refl _)

/-! ## The requests of the Kotlin side -/

/-- A method call of the Kotlin side: the Go receiver takes its bytes for the name of the method. -/
theorem unmarshal_request (stack : Stack) (declared : Bool) (call : Exchange.MethodCallRequest) (id : String) {bytes : List UInt8}
    (hbytes : Exchange.Request.toByteArray declared ⟨some (.methodCall call), id⟩ = some bytes) :
    MethodCallRequest.unmarshal stack bytes =
      .ok { methodName := Protobuf.encode (call.fields declared), assignedID := Protobuf.utf8 id } := by
  obtain ⟨hlen, hsome⟩ := Option.ite_none_right_eq_some.mp hbytes
  obtain rfl := Option.some.inj hsome
  have hlen' := hlen.trans (show 2 ^ 31 < 2 ^ 63 by decide)
  unfold MethodCallRequest.unmarshal
  have hname : Known (MethodCallRequest.generated stack).fields ⟨1, .bytes (Protobuf.encode (call.fields declared))⟩ _ :=
    @Known.bytes _ _ _ "MethodName" (fun m s => .ok { m with methodName := s }) _ Nat.one_pos (by decide) rfl
  have hid : Known (MethodCallRequest.generated stack).fields ⟨7, .bytes (Protobuf.utf8 id)⟩ _ :=
    @Known.bytes _ _ _ "AssignedID" (fun m s => .ok { m with assignedID := s }) _ (by decide) (by decide) rfl
  by_cases hempty : id = ""
  · rw [hempty] at hlen' ⊢
    exact unmarshal_encode (.cons hname .nil) hlen' {}
  · rw [Exchange.Request.fields, Protobuf.stringField, if_neg hempty] at hlen' ⊢
    exact unmarshal_encode (.cons hname (.cons hid .nil)) hlen' {}

/-- A value of the Kotlin side and one of the Go receiver are the same. -/
def SameValue : Cpp.Process.Value → Option ArgumentValue → Prop
  | .string s, some (.stringValue b) => b = Protobuf.utf8 s
  | .int n, some (.intValue m) => m = n
  | .notSet, none => True
  | _, _ => False

/-- An argument of the Kotlin side and one of the Go receiver have the same kind, value and key; no key is the empty one. -/
structure SameArgument (a : Kotlin.Argument) (arg : Argument) : Prop where
  type : arg.type = a.type
  value : SameValue a.value.toValue arg.value
  key : arg.key.getD [] = Protobuf.utf8 (a.key.getD "")

/-- A request of the Go receiver has the method name, the object id and the arguments of one of the Kotlin side. -/
structure Decoded (r : Kotlin.MethodCallRequest Kotlin.Argument) (request : Request) : Prop where
  methodName : request.methodName = Protobuf.utf8 r.methodName
  objectID : request.objectID = Protobuf.utf8 r.objectID
  args : List.Forall₂ SameArgument r.args request.args

/-- A method call in which nothing is set, apart from its id. -/
structure Unset (declared : Bool) (r : Kotlin.MethodCallRequest Kotlin.Argument) : Prop where
  methodName : r.methodName = ""
  objectID : r.objectID = ""
  type : r.type = ""
  args : r.args = []
  isStatic : r.isStatic = false
  isProperty : r.isProperty = false
  doGetReturnValue : declared = true → r.doGetReturnValue = false

/-- The message of a method call. -/
theorem toByteArray_eq_some {declared : Bool} {r : Kotlin.MethodCallRequest Kotlin.Argument} {bytes : List UInt8}
    (h : r.toByteArray declared = some bytes) :
    ∃ call, r.toProtobuf = .ok call ∧ Exchange.Request.toByteArray declared ⟨some (.methodCall call), r.assignedID⟩ = some bytes := by
  unfold Kotlin.MethodCallRequest.toByteArray at h
  split at h
  · rename_i m hm
    obtain ⟨call, hcall, hm⟩ := bind_eq_ok.mp hm
    obtain rfl := Except.ok.inj hm
    exact ⟨call, hcall, h⟩
  · cases h

/-- What `readProtobuf` makes of a method call of the Kotlin side. -/
theorem readProtobuf_request (stack : Stack) {declared : Bool} {r : Kotlin.MethodCallRequest Kotlin.Argument} {bytes : List UInt8}
    (h : r.toByteArray declared = some bytes) :
    ∃ call, r.toProtobuf = .ok call ∧ readProtobuf stack {} bytes =
      some { methodName := Protobuf.encode (call.fields declared), assignedID := Protobuf.utf8 r.assignedID } := by
  obtain ⟨call, hcall, hbytes⟩ := toByteArray_eq_some h
  refine ⟨call, hcall, ?_⟩
  rw [readProtobuf, unmarshal_request stack declared call r.assignedID hbytes]
  rfl

/-- The message of a method call has no fields exactly when nothing is set. -/
theorem fields_eq_nil_iff {declared : Bool} {r : Kotlin.MethodCallRequest Kotlin.Argument} {call : Exchange.MethodCallRequest}
    (h : r.toProtobuf = .ok call) : call.fields declared = [] ↔ Unset declared r := by
  obtain ⟨arg, harg, hcall⟩ := bind_eq_ok.mp h
  obtain rfl := Except.ok.inj hcall
  have hnil : arg = [] ↔ r.args = [] := by
    rw [← List.length_eq_zero_iff, ← (mapM_eq_ok.mp harg).length_eq, List.length_eq_zero_iff]
  simp only [Exchange.MethodCallRequest.fields, List.append_eq_nil_iff, Protobuf.stringField_eq_nil_iff, List.map_eq_nil_iff,
    Protobuf.boolField_eq_nil_iff, Bool.and_eq_false_imp, hnil]
  constructor
  · rintro ⟨⟨⟨⟨⟨⟨hname, hid⟩, hargs⟩, hstatic⟩, hreturn⟩, hproperty⟩, htype⟩
    exact ⟨hname, hid, htype, hargs, hstatic, hproperty, hreturn⟩
  · rintro ⟨hname, hid, htype, hargs, hstatic, hproperty, hreturn⟩
    exact ⟨⟨⟨⟨⟨⟨hname, hid⟩, hargs⟩, hstatic⟩, hreturn⟩, hproperty⟩, htype⟩

/-- The bytes of a message with a method name are more than those of the name. -/
theorem methodName_lt_encode (declared : Bool) {call : Exchange.MethodCallRequest} (h : call.methodName ≠ "") :
    (Protobuf.utf8 call.methodName).length < (Protobuf.encode (call.fields declared)).length := by
  have hfield := Field.length_encode_bytes 1 (Protobuf.utf8 call.methodName)
  have hsplit : ∃ fs, call.fields declared = ⟨1, .bytes (Protobuf.utf8 call.methodName)⟩ :: fs := by
    rw [Exchange.MethodCallRequest.fields, Protobuf.stringField, if_neg h]
    exact ⟨_, rfl⟩
  obtain ⟨fs, hfs⟩ := hsplit
  rw [hfs, Protobuf.encode_cons, List.length_append]
  omega

/-- The Go receiver reads a method call of the Kotlin side as what it is if and only if nothing is set in it. -/
theorem decoded_iff (stack : Stack) {declared : Bool} {r : Kotlin.MethodCallRequest Kotlin.Argument} {bytes : List UInt8}
    (h : r.toByteArray declared = some bytes) :
    (∃ request, readProtobuf stack {} bytes = some request ∧ Decoded r request) ↔ Unset declared r := by
  obtain ⟨call, hcall, hread⟩ := readProtobuf_request stack h
  rw [← fields_eq_nil_iff hcall]
  constructor
  · rintro ⟨request, hrequest, hname, -, -⟩
    obtain rfl := Option.some.inj (hread.symm.trans hrequest)
    have hcallName : call.methodName = r.methodName := by
      obtain ⟨arg, -, hcall⟩ := bind_eq_ok.mp hcall
      obtain rfl := Except.ok.inj hcall
      rfl
    by_cases hempty : r.methodName = ""
    · rw [hempty] at hname
      exact Protobuf.encode_eq_nil_iff.mp hname
    · have hlt := methodName_lt_encode declared (hcallName ▸ hempty)
      rw [hcallName] at hlt
      exact absurd (congrArg List.length hname) (Nat.ne_of_gt hlt)
  · intro hnil
    obtain ⟨hname, hid, -, hargs, -, -, -⟩ := (fields_eq_nil_iff hcall).mp hnil
    refine ⟨_, hread, ?_, ?_, ?_⟩
    · rw [hnil, hname]
      rfl
    · rw [hid]
      rfl
    · rw [hargs]
      exact .nil

/-- The rule at a method call in which only the id is set. -/
theorem decoded_iff_unset : ∃ bytes, Kotlin.MethodCallRequest.toByteArray true { methodName := "", assignedID := "7" } = some bytes ∧
    ∃ request, readProtobuf .million {} bytes = some request ∧ Decoded { methodName := "", assignedID := "7" } request := by
  have hutf8 : Protobuf.utf8 "7" = [0x37] := by decide
  have hbytes : Kotlin.MethodCallRequest.toByteArray true { methodName := "", assignedID := "7" } =
      some [0x0A, 0x00, 0x3A, 0x01, 0x37] := by
    show Exchange.Request.toByteArray true ⟨some (.methodCall {}), "7"⟩ = _
    simp [Exchange.Request.toByteArray, Exchange.Request.fields, Exchange.RequestCase.field, Exchange.MethodCallRequest.fields,
      Field.encode, Protobuf.Value.encode, Protobuf.Value.wireType, Protobuf.varint_of_lt, Protobuf.stringField, Protobuf.boolField,
      hutf8]
  exact ⟨_, hbytes, (decoded_iff .million hbytes).mpr ⟨rfl, rfl, rfl, rfl, rfl, rfl, fun _ => rfl⟩⟩

/-- The call of a method `f` is read as one of a method whose name is the three bytes of the message that the call is. -/
theorem not_decoded : ∃ bytes, Kotlin.MethodCallRequest.toByteArray true { methodName := "f" } = some bytes ∧
    readProtobuf .million {} bytes = some { methodName := [0x0A, 0x01, 0x66] } ∧
    ¬∃ request, readProtobuf .million {} bytes = some request ∧ Decoded { methodName := "f" } request := by
  have hutf8 : Protobuf.utf8 "f" = [0x66] := by decide
  have hbytes : Kotlin.MethodCallRequest.toByteArray true { methodName := "f" } = some [0x0A, 0x03, 0x0A, 0x01, 0x66] := by
    show Exchange.Request.toByteArray true ⟨some (.methodCall { methodName := "f" }), ""⟩ = _
    simp [Exchange.Request.toByteArray, Exchange.Request.fields, Exchange.RequestCase.field, Exchange.MethodCallRequest.fields,
      Field.encode, Protobuf.Value.encode, Protobuf.Value.wireType, Protobuf.varint_of_lt, Protobuf.stringField, Protobuf.boolField,
      hutf8]
  have hread : readProtobuf .million {} [0x0A, 0x03, 0x0A, 0x01, 0x66] = some { methodName := [0x0A, 0x01, 0x66] } := by decide +kernel
  refine ⟨_, hbytes, hread, ?_⟩
  rintro ⟨request, hrequest, hname, -, -⟩
  obtain rfl := Option.some.inj (hread.symm.trans hrequest)
  rw [hutf8] at hname
  cases hname

end LibraryLink.Go
