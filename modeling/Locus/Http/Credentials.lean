import Mathlib.Data.List.Induction
import Mathlib.Data.List.Nodup
import Mathlib.Data.String.Basic
import Std.Data.HashMap.Lemmas

/-!
# Bearer credentials

The index holds the credentials in buckets, one for each digest of a token. A lookup goes
through one bucket and compares the tokens themselves, so what the digests are does not
matter, and neither does whether two of them are the same.
-/

namespace Locus.Http

structure TenantCredential where
  tenantId : String
  bearerToken : String
  deriving DecidableEq

structure IndexedCredential where
  tenantId : String
  bearerToken : ByteArray

inductive CredentialIndexError
  | emptyCredential
  | duplicateCredential
  deriving DecidableEq

/-- What one entry of the list leaves in a bucket. -/
def TenantCredential.indexed (credential : TenantCredential) : IndexedCredential where
  tenantId := credential.tenantId
  bearerToken := credential.bearerToken.toByteArray

/-- The credentials by the digests of their tokens. -/
structure CredentialIndex (Digest : Type) [DecidableEq Digest] [Hashable Digest] where
  buckets : Std.HashMap Digest (List IndexedCredential)

section Index

variable {Digest : Type} [DecidableEq Digest] [Hashable Digest]

-- `token_digest`, which is SHA-256 in the code, and `ct_eq` on byte slices.
variable (tokenDigest : ByteArray → Digest) (ctEq : ByteArray → ByteArray → Bool)

/-- One turn of the loop of `CredentialIndex::new`. -/
def insertCredential (buckets : Std.HashMap Digest (List IndexedCredential))
    (credential : TenantCredential) :
    Except CredentialIndexError (Std.HashMap Digest (List IndexedCredential)) :=
  if credential.bearerToken.isEmpty then .error .emptyCredential
  else
    let digest := tokenDigest credential.bearerToken.toByteArray
    let bucket := buckets[digest]?.getD []
    if bucket.any fun candidate =>
        candidate.bearerToken.size == credential.bearerToken.utf8ByteSize &&
          ctEq candidate.bearerToken credential.bearerToken.toByteArray then
      .error .duplicateCredential
    else .ok (buckets.insert digest (bucket ++ [credential.indexed]))

/-- `CredentialIndex::new` -/
def CredentialIndex.new (credentials : List TenantCredential) :
    Except CredentialIndexError (CredentialIndex Digest) :=
  (credentials.foldlM (insertCredential tokenDigest ctEq) ∅).map CredentialIndex.mk

/-- The loop of `authenticate` over a bucket: the last match counts. -/
def matchBucket (bucket : List IndexedCredential) (candidate : String) : Option String :=
  bucket.foldl (fun tenant credential =>
    if candidate.utf8ByteSize == credential.bearerToken.size &&
        ctEq candidate.toByteArray credential.bearerToken then
      some credential.tenantId
    else tenant) none

/-- `CredentialIndex::authenticate` -/
def CredentialIndex.authenticate (index : CredentialIndex Digest) (candidate : String) :
    Option String :=
  index.buckets[tokenDigest candidate.toByteArray]?.bind fun bucket =>
    matchBucket ctEq bucket candidate

end Index

/-- Each token has one meaning, and none is empty. -/
@[mk_iff] structure Unambiguous (credentials : List TenantCredential) : Prop where
  nonempty : ∀ credential ∈ credentials, credential.bearerToken ≠ ""
  nodup : (credentials.map TenantCredential.bearerToken).Nodup

/-- The buckets hold exactly the credentials, each under the digest of its token. -/
def Represents {Digest : Type} [DecidableEq Digest] [Hashable Digest]
    (tokenDigest : ByteArray → Digest) (credentials : List TenantCredential)
    (buckets : Std.HashMap Digest (List IndexedCredential)) : Prop :=
  ∀ digest, buckets[digest]?.getD [] = (credentials.filter fun credential =>
    tokenDigest credential.bearerToken.toByteArray = digest).map TenantCredential.indexed

/-- What is documented of `ct_eq`: it decides whether two byte strings are the same. -/
def DecidesEq (ctEq : ByteArray → ByteArray → Bool) : Prop :=
  ∀ bytes bytes', ctEq bytes bytes' = true ↔ bytes = bytes'

section Matching

variable {ctEq : ByteArray → ByteArray → Bool} {credential : TenantCredential}
  {credentials : List TenantCredential} {candidate tenant : String}

/-- The comparison in a bucket finds the same token. -/
theorem matches_iff (hct : DecidesEq ctEq) (token token' : String) :
    (token.utf8ByteSize == token'.toByteArray.size &&
      ctEq token.toByteArray token'.toByteArray) = true ↔ token = token' := by
  rw [Bool.and_eq_true, beq_iff_eq, hct, String.toByteArray_inj]
  constructor
  · exact And.right
  · rintro rfl
    exact ⟨rfl, rfl⟩

theorem unambiguous_nil : Unambiguous [] :=
  ⟨nofun, List.nodup_nil⟩

/-- One more credential is unambiguous if its token is new. -/
theorem unambiguous_concat : Unambiguous (credentials ++ [credential]) ↔
    Unambiguous credentials ∧ credential.bearerToken ≠ "" ∧
      ∀ other ∈ credentials, other.bearerToken ≠ credential.bearerToken := by
  constructor
  · rintro ⟨hnonempty, hnodup⟩
    rw [List.map_append, List.nodup_append] at hnodup
    refine ⟨⟨?_, hnodup.1⟩, hnonempty _ (by simp), ?_⟩
    · intro other hother
      exact hnonempty other (List.mem_append_left _ hother)
    · intro other hother
      exact hnodup.2.2 _ (List.mem_map_of_mem hother) _ (List.mem_singleton.mpr rfl)
  · rintro ⟨⟨hnonempty, hnodup⟩, hnew, hother⟩
    refine ⟨?_, ?_⟩
    · intro other hmem
      rcases List.mem_append.mp hmem with hmem | hmem
      · exact hnonempty other hmem
      · rw [List.mem_singleton.mp hmem]
        exact hnew
    · rw [List.map_append, List.nodup_append]
      refine ⟨hnodup, List.nodup_singleton _, ?_⟩
      intro token htoken token' htoken'
      obtain ⟨other, hmem, rfl⟩ := List.mem_map.mp htoken
      rw [List.mem_singleton.mp htoken']
      exact hother other hmem

/-- The last match is the tenant of the last credential with the token. -/
theorem matchBucket_eq (hct : DecidesEq ctEq) (bucket : List TenantCredential)
    (candidate : String) :
    matchBucket ctEq (bucket.map TenantCredential.indexed) candidate =
      (bucket.filter fun credential => credential.bearerToken = candidate).getLast?.map
        TenantCredential.tenantId := by
  induction bucket using List.reverseRecOn with
  | nil => rfl
  | append_singleton bucket credential ih =>
    rw [matchBucket] at ih ⊢
    rw [List.map_append, List.foldl_append, List.map_singleton, List.foldl_cons, List.foldl_nil,
      ih, List.filter_append]
    have hmatches : (candidate.utf8ByteSize == credential.indexed.bearerToken.size &&
        ctEq candidate.toByteArray credential.indexed.bearerToken) = true ↔
          candidate = credential.bearerToken := matches_iff hct candidate credential.bearerToken
    by_cases heq : credential.bearerToken = candidate
    · rw [if_pos (hmatches.mpr heq.symm)]
      simp [heq, TenantCredential.indexed]
    · rw [if_neg fun h => heq (hmatches.mp h).symm]
      simp [heq]

/-- Of unambiguous credentials, a token has at most one. -/
theorem Unambiguous.getLast?_filter_eq_some_iff (h : Unambiguous credentials) :
    ((credentials.filter fun credential => credential.bearerToken = candidate).getLast?.map
        TenantCredential.tenantId) = some tenant ↔ ⟨tenant, candidate⟩ ∈ credentials := by
  have hmem : ∀ credential,
      credential ∈ credentials.filter (fun credential => credential.bearerToken = candidate) ↔
        credential ∈ credentials ∧ credential.bearerToken = candidate := by
    intro credential
    rw [List.mem_filter, decide_eq_true_eq]
  constructor
  · intro hlast
    obtain ⟨credential, hcredential, rfl⟩ := Option.map_eq_some_iff.mp hlast
    obtain ⟨hin, rfl⟩ := (hmem credential).mp (List.mem_of_getLast? hcredential)
    exact hin
  · intro hin
    have hfiltered := (hmem ⟨tenant, candidate⟩).mpr ⟨hin, rfl⟩
    have hne := List.ne_nil_of_mem hfiltered
    obtain ⟨hlast, htoken⟩ := (hmem _).mp (List.getLast_mem hne)
    have heq := List.inj_on_of_nodup_map h.nodup hlast hin htoken
    rw [List.getLast?_eq_some_getLast hne, heq, Option.map_some]

end Matching

section Representation

variable {Digest : Type} [DecidableEq Digest] [Hashable Digest]
  {tokenDigest : ByteArray → Digest} {ctEq : ByteArray → ByteArray → Bool}
  {credentials : List TenantCredential} {credential : TenantCredential}
  {buckets next : Std.HashMap Digest (List IndexedCredential)} {error : CredentialIndexError}

theorem represents_nil :
    Represents tokenDigest [] (∅ : Std.HashMap Digest (List IndexedCredential)) := by
  intro digest
  simp

/-- A bucket has a token exactly if the credentials do. -/
theorem Represents.any_bucket_iff (hct : DecidesEq ctEq)
    (h : Represents tokenDigest credentials buckets) (token : String) :
    (buckets[tokenDigest token.toByteArray]?.getD []).any (fun candidate =>
        candidate.bearerToken.size == token.utf8ByteSize &&
          ctEq candidate.bearerToken token.toByteArray) = true ↔
      ∃ other ∈ credentials, other.bearerToken = token := by
  rw [h, List.any_map, List.any_eq_true]
  constructor
  · rintro ⟨other, hother, hmatches⟩
    exact ⟨other, (List.mem_filter.mp hother).1, (matches_iff hct _ _).mp hmatches⟩
  · rintro ⟨other, hother, rfl⟩
    refine ⟨other, List.mem_filter.mpr ⟨hother, by simp⟩, ?_⟩
    exact (matches_iff hct other.bearerToken _).mpr rfl

/-- A new credential goes to the end of its bucket. -/
theorem Represents.insert (h : Represents tokenDigest credentials buckets)
    (credential : TenantCredential) :
    Represents tokenDigest (credentials ++ [credential])
      (buckets.insert (tokenDigest credential.bearerToken.toByteArray)
        ((buckets[tokenDigest credential.bearerToken.toByteArray]?.getD []) ++
          [credential.indexed])) := by
  intro digest
  rw [Std.HashMap.getElem?_insert, List.filter_append, List.map_append]
  by_cases heq : tokenDigest credential.bearerToken.toByteArray = digest
  · subst heq
    simp [h (tokenDigest credential.bearerToken.toByteArray)]
  · simp [heq, h digest]

/-- One turn of the loop accepts exactly the credentials that keep the list unambiguous. -/
theorem insertCredential_spec (hct : DecidesEq ctEq)
    (h : Represents tokenDigest credentials buckets) (hbefore : Unambiguous credentials)
    (credential : TenantCredential) :
    match insertCredential tokenDigest ctEq buckets credential with
    | .ok next => Unambiguous (credentials ++ [credential]) ∧
        Represents tokenDigest (credentials ++ [credential]) next
    | .error _ => ¬ Unambiguous (credentials ++ [credential]) := by
  have hany := h.any_bucket_iff hct credential.bearerToken
  unfold insertCredential
  by_cases hempty : credential.bearerToken.isEmpty = true
  · rw [if_pos hempty]
    intro hafter
    exact (unambiguous_concat.mp hafter).2.1 (String.isEmpty_iff.mp hempty)
  · rw [if_neg hempty]
    by_cases hduplicate : ∃ other ∈ credentials, other.bearerToken = credential.bearerToken
    · simp only [hany.mpr hduplicate, if_true]
      intro hafter
      obtain ⟨other, hother, heq⟩ := hduplicate
      exact (unambiguous_concat.mp hafter).2.2 other hother heq
    · have hnone := Bool.eq_false_iff.mpr (mt hany.mp hduplicate)
      simp only [hnone, Bool.false_eq_true, if_false]
      refine ⟨unambiguous_concat.mpr ⟨hbefore, mt String.isEmpty_iff.mpr hempty, ?_⟩,
        h.insert credential⟩
      intro other hother heq
      exact hduplicate ⟨other, hother, heq⟩

/-- The loop succeeds exactly on unambiguous credentials, and then represents them. -/
theorem foldlM_insertCredential_spec (tokenDigest : ByteArray → Digest) (hct : DecidesEq ctEq)
    (credentials : List TenantCredential) :
    match credentials.foldlM (insertCredential tokenDigest ctEq) ∅ with
    | .ok buckets => Unambiguous credentials ∧ Represents tokenDigest credentials buckets
    | .error _ => ¬ Unambiguous credentials := by
  induction credentials using List.reverseRecOn with
  | nil => exact ⟨unambiguous_nil, represents_nil⟩
  | append_singleton credentials credential ih =>
    rw [List.foldlM_append]
    cases hfold : credentials.foldlM (insertCredential tokenDigest ctEq) ∅ with
    | error error =>
      rw [hfold] at ih
      exact fun hafter => ih (unambiguous_concat.mp hafter).1
    | ok buckets =>
      rw [hfold] at ih
      have hspec := insertCredential_spec hct ih.2 ih.1 credential
      change match insertCredential tokenDigest ctEq buckets credential >>= pure with
        | .ok buckets => _
        | .error _ => _
      rwa [bind_pure]

end Representation

/-- The index stands for the list of credentials: there is one exactly if no token is empty or
stands in two entries, and it knows exactly the entries of the list. -/
structure StandsFor {Digest : Type} [DecidableEq Digest] [Hashable Digest]
    (tokenDigest : ByteArray → Digest) (ctEq : ByteArray → ByteArray → Bool)
    (credentials : List TenantCredential) : Prop where
  fails_iff : (∃ error, CredentialIndex.new tokenDigest ctEq credentials = .error error) ↔
    (∃ credential ∈ credentials, credential.bearerToken = "") ∨
      ∃ i j, i < j ∧ j < credentials.length ∧
        credentials[i]?.map TenantCredential.bearerToken =
          credentials[j]?.map TenantCredential.bearerToken
  authenticates_iff : ∀ index, CredentialIndex.new tokenDigest ctEq credentials = .ok index →
    ∀ candidate tenant, index.authenticate tokenDigest ctEq candidate = some tenant ↔
      ⟨tenant, candidate⟩ ∈ credentials

section Exactness

variable {Digest : Type} [DecidableEq Digest] [Hashable Digest]
  {tokenDigest : ByteArray → Digest} {ctEq : ByteArray → ByteArray → Bool}
  {credentials : List TenantCredential}

/-- Credentials are ambiguous if a token is empty or stands in two entries. -/
theorem not_unambiguous_iff : ¬ Unambiguous credentials ↔
    (∃ credential ∈ credentials, credential.bearerToken = "") ∨
      ∃ i j, i < j ∧ j < credentials.length ∧
        credentials[i]?.map TenantCredential.bearerToken =
          credentials[j]?.map TenantCredential.bearerToken := by
  rw [unambiguous_iff, not_and_or, List.nodup_iff_getElem?_ne_getElem?]
  simp only [not_forall, exists_prop, ne_eq, not_not, List.getElem?_map, List.length_map]

/-- The index knows exactly the credentials that its buckets represent. -/
theorem Represents.authenticate_eq_some_iff (hct : DecidesEq ctEq)
    {index : CredentialIndex Digest} (h : Represents tokenDigest credentials index.buckets)
    (hunambiguous : Unambiguous credentials) (candidate tenant : String) :
    index.authenticate tokenDigest ctEq candidate = some tenant ↔
      ⟨tenant, candidate⟩ ∈ credentials := by
  have hbucket : index.authenticate tokenDigest ctEq candidate =
      matchBucket ctEq (index.buckets[tokenDigest candidate.toByteArray]?.getD []) candidate := by
    unfold CredentialIndex.authenticate
    cases index.buckets[tokenDigest candidate.toByteArray]? <;> rfl
  have htoken : ∀ credential : TenantCredential,
      (decide (credential.bearerToken = candidate) &&
        decide (tokenDigest credential.bearerToken.toByteArray =
          tokenDigest candidate.toByteArray)) = decide (credential.bearerToken = candidate) := by
    intro credential
    by_cases heq : credential.bearerToken = candidate
    · simp [heq]
    · simp [heq]
  rw [hbucket, h, matchBucket_eq hct, List.filter_filter]
  simp only [htoken]
  exact hunambiguous.getLast?_filter_eq_some_iff

/-- With any digest at all, the index stands for the list of credentials. -/
theorem credentialIndex_standsFor (hct : DecidesEq ctEq) (credentials : List TenantCredential) :
    StandsFor tokenDigest ctEq credentials := by
  have hspec := foldlM_insertCredential_spec tokenDigest hct credentials
  cases hfold : credentials.foldlM (insertCredential tokenDigest ctEq) ∅ with
  | error error =>
    rw [hfold] at hspec
    have hnew : CredentialIndex.new tokenDigest ctEq credentials = .error error := by
      rw [CredentialIndex.new, hfold]
      rfl
    refine ⟨?_, ?_⟩
    · rw [← not_unambiguous_iff]
      exact ⟨fun _ => hspec, fun _ => ⟨error, hnew⟩⟩
    · intro index hindex
      rw [hnew] at hindex
      cases hindex
  | ok buckets =>
    rw [hfold] at hspec
    have hnew : CredentialIndex.new tokenDigest ctEq credentials = .ok ⟨buckets⟩ := by
      rw [CredentialIndex.new, hfold]
      rfl
    refine ⟨?_, ?_⟩
    · rw [← not_unambiguous_iff, hnew]
      constructor
      · rintro ⟨error, herror⟩
        cases herror
      · intro hambiguous
        exact absurd hspec.1 hambiguous
    · intro index hindex candidate tenant
      rw [hnew] at hindex
      cases hindex
      exact Represents.authenticate_eq_some_iff hct hspec.2 hspec.1 candidate tenant

/-- Two tokens under one digest. -/
theorem credentialIndex_standsFor_collision :
    StandsFor (fun _ => 0) (fun bytes bytes' => decide (bytes.data = bytes'.data))
      [⟨"a", "first"⟩, ⟨"b", "second"⟩] :=
  credentialIndex_standsFor (fun _ _ => decide_eq_true_iff.trans ByteArray.ext_iff.symm) _

end Exactness

end Locus.Http
