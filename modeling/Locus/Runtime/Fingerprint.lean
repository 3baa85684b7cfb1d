import Locus.Lib.Separators
import Locus.Lib.Utf8
import Locus.Runtime.PlanningInput

/-!
# What the input fingerprint absorbs

The fingerprint hashes the texts of a request and its items one after the other, with nothing
between them that says where one ends. So no request has bytes of its own: what belongs to the
adapter may as well belong to the execution profile. Requests of one layout are told apart.
-/

namespace Locus.Runtime

open Locus.Core Locus.Lib

section Bytes

theorem toList_loop (bytes : ByteArray) (i : ℕ) (read : List UInt8) :
    ByteArray.toList.loop bytes i read = read.reverse ++ bytes.data.toList.drop i := by
  unfold ByteArray.toList.loop
  split
  next hlt =>
    have hget : bytes.get! i = bytes.data.toList[i] := getElem!_pos bytes.data i hlt
    rw [toList_loop bytes (i + 1) (bytes.get! i :: read), hget, List.reverse_cons,
      List.append_assoc, List.singleton_append, List.getElem_cons_drop]
  next hle =>
    rw [List.drop_of_length_le (Nat.not_lt.mp hle), List.append_nil]
  termination_by bytes.size - i

/-- The bytes of a text are its encoding. -/
theorem asBytes_eq (text : String) : asBytes text = utf8 text.toList := by
  rw [asBytes, ByteArray.toList, toList_loop, List.reverse_nil, List.nil_append, List.drop_zero,
    String.toUTF8_eq_toByteArray, ← String.utf8Encode_toList, List.utf8Encode,
    List.toList_data_toByteArray, utf8]

@[simp] theorem asBytes_empty : asBytes "" = [] := by
  rw [asBytes_eq]
  rfl

@[simp] theorem asBytes_append (front back : String) :
    asBytes (front ++ back) = asBytes front ++ asBytes back := by
  simp [asBytes_eq]

theorem asBytes_injective : Function.Injective asBytes := by
  intro text text' h
  rw [asBytes_eq, asBytes_eq] at h
  exact String.toList_injective (utf8_injective h)

theorem length_asBytes (text : String) : (asBytes text).length = text.utf8ByteSize := by
  rw [asBytes, ByteArray.toList, toList_loop]
  rfl

/-- Four bytes determine a token. -/
theorem toLeBytes_injective : Function.Injective toLeBytes := by
  intro token token' h
  simp only [toLeBytes, List.cons.injEq, and_true, ← UInt8.toNat_inj, UInt32.toNat_toUInt8,
    UInt32.toNat_shiftRight, Nat.shiftRight_eq_div_pow] at h
  have hlt := token.toNat_lt
  have hlt' := token'.toNat_lt
  have hshifts : (8 : UInt32).toNat % 32 = 8 ∧ (16 : UInt32).toNat % 32 = 16 ∧
      (24 : UInt32).toNat % 32 = 24 := ⟨rfl, rfl, rfl⟩
  rw [hshifts.1, hshifts.2.1, hshifts.2.2] at h
  rw [← UInt32.toNat_inj]
  omega

end Bytes

section Absorbed

/-- The texts that are hashed first. An absent adapter counts as an empty one. -/
def leadingTexts (request : CanonicalRequest) : List String :=
  [request.model.modelRevision, request.model.adapterRevision.getD "",
    request.model.executionProfile, request.inputSemantics.tokenizer.fingerprint,
    request.inputSemantics.template.fingerprint]

/-- The bytes that are hashed for an item. -/
def itemBytes (item : InputItem) : List UInt8 :=
  asBytes item.id ++
    match item.value with
    | .tokenSequence tokenIds => tokenIds.flatMap toLeBytes
    | .other debugText => asBytes debugText

/-- The byte sequence that `input_fingerprint` feeds to its hash. -/
def absorbed (request : CanonicalRequest) : List UInt8 :=
  (leadingTexts request).flatMap asBytes ++ request.items.flatMap itemBytes

theorem mixFingerprint_append (hash : UInt64) (front back : List UInt8) :
    mixFingerprint hash (front ++ back) = mixFingerprint (mixFingerprint hash front) back :=
  List.foldl_append

theorem mixFingerprint_flatMap {α : Type} (bytes : α → List UInt8) (parts : List α)
    (hash : UInt64) :
    parts.foldl (fun hash part => mixFingerprint hash (bytes part)) hash =
      mixFingerprint hash (parts.flatMap bytes) := by
  induction parts generalizing hash with
  | nil => rfl
  | cons part parts ih =>
    rw [List.foldl_cons, ih, List.flatMap_cons, mixFingerprint_append]

theorem mixItem_eq (hash : UInt64) (item : InputItem) :
    mixItem hash item = mixFingerprint hash (itemBytes item) := by
  obtain ⟨id, value⟩ := item
  rw [itemBytes, mixFingerprint_append]
  cases value with
  | tokenSequence tokenIds => exact mixFingerprint_flatMap toLeBytes tokenIds _
  | other debugText => rfl

/-- The fingerprint is the hash of the absorbed bytes. -/
theorem inputFingerprint_eq (request : CanonicalRequest) :
    inputFingerprint request = "locus-input-fnv1a64-v1:" ++
      hexDigits (mixFingerprint 0xcbf29ce484222325 (absorbed request)) := by
  have hitems : mixItem = fun hash item => mixFingerprint hash (itemBytes item) := by
    funext hash item
    exact mixItem_eq hash item
  rw [absorbed, mixFingerprint_append, ← mixFingerprint_flatMap, ← mixFingerprint_flatMap, ← hitems]
  rfl

end Absorbed

section Identity

variable {request other : CanonicalRequest} {item item' : InputItem}

/-- Two requests agree in all that their fingerprints are computed from. -/
structure SameInput (request other : CanonicalRequest) : Prop where
  modelRevision : request.model.modelRevision = other.model.modelRevision
  adapterRevision : request.model.adapterRevision = other.model.adapterRevision
  executionProfile : request.model.executionProfile = other.model.executionProfile
  tokenizer : request.inputSemantics.tokenizer.fingerprint =
    other.inputSemantics.tokenizer.fingerprint
  template : request.inputSemantics.template.fingerprint =
    other.inputSemantics.template.fingerprint
  items : request.items.map (fun item => (item.id, InputItem.tokenIds item)) =
    other.items.map (fun item => (item.id, InputItem.tokenIds item))

/-- No request of another input has the bytes of this one. -/
def Unambiguous (request : CanonicalRequest) : Prop :=
  ∀ other, absorbed request = absorbed other → SameInput request other

/-- How many bytes an item's id has, and how many tokens or how many bytes of text follow. -/
def itemLayout (item : InputItem) : ℕ × (ℕ ⊕ ℕ) :=
  (item.id.utf8ByteSize,
    match item.value with
    | .tokenSequence tokenIds => .inl tokenIds.length
    | .other debugText => .inr debugText.utf8ByteSize)

/-- Whether there is an adapter, how long the texts are, and the layout of the items. -/
def inputLayout (request : CanonicalRequest) : Bool × List ℕ × List (ℕ × (ℕ ⊕ ℕ)) :=
  (request.model.adapterRevision.isSome, (leadingTexts request).map String.utf8ByteSize,
    request.items.map itemLayout)

/-- The texts of an absent adapter are those of an empty one. -/
theorem absorbed_emptyAdapter (h : request.model.adapterRevision = none) :
    absorbed { request with model := { request.model with adapterRevision := some "" } } =
      absorbed request := by
  simp [absorbed, leadingTexts, h]

/-- An adapter's text may as well be the end of the model's. -/
theorem absorbed_joinedAdapter {adapter : String}
    (h : request.model.adapterRevision = some adapter) :
    absorbed { request with model := { request.model with
        modelRevision := request.model.modelRevision ++ adapter
        adapterRevision := none } } = absorbed request := by
  simp [absorbed, leadingTexts, h]

theorem length_flatMap_toLeBytes (tokenIds : List UInt32) :
    (tokenIds.flatMap toLeBytes).length = 4 * tokenIds.length := by
  induction tokenIds with
  | nil => rfl
  | cons token tokenIds ih =>
    rw [List.flatMap_cons, List.length_append, ih, List.length_cons]
    change 4 + _ = _
    omega

/-- As many tokens with the same bytes are the same. -/
theorem tokenIds_eq {tokenIds tokenIds' : List UInt32} (hlength : tokenIds.length = tokenIds'.length)
    (h : tokenIds.flatMap toLeBytes = tokenIds'.flatMap toLeBytes) : tokenIds = tokenIds' := by
  have hlayout : tokenIds.map (fun _ => ()) = tokenIds'.map (fun _ => ()) := by
    simpa [List.map_const'] using hlength
  have hbytes : tokenIds.flatMap toLeBytes ++ [] = tokenIds'.flatMap toLeBytes ++ [] := by rw [h]
  exact (eq_of_flatMap_append_eq (fun _ _ _ => rfl)
    (fun token token' _ htoken => toLeBytes_injective htoken) hlayout hbytes).1

theorem length_itemBytes (h : itemLayout item = itemLayout item') :
    (itemBytes item).length = (itemBytes item').length := by
  obtain ⟨id, value⟩ := item
  obtain ⟨id', value'⟩ := item'
  simp only [itemLayout, Prod.mk.injEq] at h
  simp only [itemBytes, List.length_append, length_asBytes, h.1]
  rcases value with tokenIds | debugText <;> rcases value' with tokenIds' | debugText'
  · rw [length_flatMap_toLeBytes, length_flatMap_toLeBytes, Sum.inl.inj h.2]
  · cases h.2
  · cases h.2
  · rw [length_asBytes, length_asBytes, Sum.inr.inj h.2]

/-- Items of one layout with the same bytes are the same. -/
theorem item_eq_of_itemBytes (h : itemLayout item = itemLayout item')
    (hbytes : itemBytes item = itemBytes item') : item = item' := by
  obtain ⟨id, value⟩ := item
  obtain ⟨id', value'⟩ := item'
  simp only [itemLayout, Prod.mk.injEq] at h
  obtain ⟨hid, hvalue⟩ := List.append_inj hbytes (by simp [length_asBytes, h.1])
  obtain rfl := asBytes_injective hid
  rcases value with tokenIds | debugText <;> rcases value' with tokenIds' | debugText'
  · rw [tokenIds_eq (Sum.inl.inj h.2) hvalue]
  · cases h.2
  · cases h.2
  · rw [asBytes_injective hvalue]

/-- Requests of one layout with the same bytes agree. -/
theorem sameInput_of_inputLayout (hlayout : inputLayout request = inputLayout other)
    (h : absorbed request = absorbed other) : SameInput request other := by
  simp only [inputLayout, Prod.mk.injEq] at hlayout
  obtain ⟨hadapter, htexts, hitems⟩ := hlayout
  obtain ⟨hleading, hrest⟩ := eq_of_flatMap_append_eq
    (fun text text' hsize => by rw [length_asBytes, length_asBytes, hsize])
    (fun text text' _ hbytes => asBytes_injective hbytes) htexts h
  have hsame : request.items = other.items := by
    have hbytes : request.items.flatMap itemBytes ++ [] = other.items.flatMap itemBytes ++ [] := by
      rw [hrest]
    exact (eq_of_flatMap_append_eq (fun item item' => length_itemBytes)
      (fun item item' => item_eq_of_itemBytes) hitems hbytes).1
  simp only [leadingTexts, List.cons.injEq, and_true] at hleading
  obtain ⟨hmodel, hadapterText, hprofile, htokenizer, htemplate⟩ := hleading
  refine ⟨hmodel, ?_, hprofile, htokenizer, htemplate, by rw [hsame]⟩
  cases hfirst : request.model.adapterRevision <;>
    cases hsecond : other.model.adapterRevision
  · rfl
  · simp [hfirst, hsecond] at hadapter
  · simp [hfirst, hsecond] at hadapter
  · rw [hfirst, hsecond] at hadapterText
    exact congrArg some hadapterText

/-- Every request shares its bytes with one of another input, which can have another layout
only. -/
theorem ambiguous_unless_inputLayout (request : CanonicalRequest) :
    ¬ Unambiguous request ∧ ∀ other, inputLayout request = inputLayout other →
      absorbed request = absorbed other → SameInput request other := by
  refine ⟨fun h => ?_, fun other => sameInput_of_inputLayout⟩
  cases hadapter : request.model.adapterRevision with
  | none =>
    have hsame := (h _ (absorbed_emptyAdapter hadapter).symm).adapterRevision
    rw [hadapter] at hsame
    cases hsame
  | some adapter =>
    have hsame := (h _ (absorbed_joinedAdapter hadapter).symm).adapterRevision
    rw [hadapter] at hsame
    cases hsame

/-- A request for adapter 0 of the first revision. -/
def adapterRequest : CanonicalRequest where
  id := "request"
  model := ⟨"revision-1", some "0", "profile"⟩
  inputSemantics := ⟨⟨"tokenizer", "main", "sha256:1"⟩, ⟨"template", "main", "sha256:2"⟩, none⟩
  requirements := ⟨{.tokenSequence}, true, false, false, false⟩
  items := [⟨"prompt", .tokenSequence [1, 2, 3]⟩]

/-- It has the bytes, and so the fingerprint, of the same request for the tenth revision
without an adapter. -/
theorem not_unambiguous_adapterRequest :
    let other : CanonicalRequest :=
      { adapterRequest with model := ⟨"revision-10", none, "profile"⟩ }
    absorbed adapterRequest = absorbed other ∧
      inputFingerprint adapterRequest = inputFingerprint other ∧
      ¬ SameInput adapterRequest other := by
  have hbytes : absorbed { adapterRequest with model := ⟨"revision-10", none, "profile"⟩ } =
      absorbed adapterRequest := by
    rw [show "revision-10" = "revision-1" ++ "0" by decide]
    exact @absorbed_joinedAdapter adapterRequest "0" rfl
  refine ⟨hbytes.symm, ?_, fun h => ?_⟩
  · rw [inputFingerprint_eq, inputFingerprint_eq, hbytes]
  · exact absurd h.adapterRevision (by decide)

end Identity

end Locus.Runtime
