import Mathlib.Data.Rat.Defs
import Mathlib.Order.Lattice

/-!
# Typed immutable domain values

The frozen dataclasses of `proofops.domain.values`: element states, tracks,
grades and their labels, source references and tagged elements.  The checks a
dataclass makes on construction are proof fields here, so a present element
without a source or a reference with crossed offsets cannot be built; `make`
is the checked constructor and raises where the source does.

Identifiers and digests are plain strings.  Their lexical form (canonical UUID,
64 lowercase hexadecimal digits) is checked at the boundary of the source and
read by nothing below.
-/

namespace ProofOps.Domain

inductive PyError where
  | domainValidation (message : String)
  | keyError (key : String)
  | valueError (message : String)
  | typeError
  deriving DecidableEq

/-- `ElementState`. -/
inductive ElementState where
  | present
  | absent
  | unknown
  | conflict
  | notApplicable
  deriving DecidableEq

/-- `TRACKS`. -/
inductive Track where
  | goal
  | performance
  | management
  deriving DecidableEq

inductive Grade where
  | e0
  | e1
  | e2
  | e3
  deriving DecidableEq

namespace Grade

def rank : Grade → Nat
  | e0 => 0
  | e1 => 1
  | e2 => 2
  | e3 => 3

theorem rank_injective : Function.Injective rank := by
  intro first second h
  cases first <;> cases second <;> simp_all [rank]

instance : LinearOrder Grade :=
  LinearOrder.lift' rank rank_injective

/-- `E0` is the least grade. -/
theorem e0_le (grade : Grade) : e0 ≤ grade :=
  Nat.zero_le grade.rank

end Grade

/-- Labels a decided grade is shown under. -/
inductive Label where
  | unsubstantiated
  | incomplete
  | substantiated
  deriving DecidableEq

/-- `GRADE_LABEL_MAP`. -/
def gradeLabelMap : Grade → Label
  | .e0 => .unsubstantiated
  | .e1 => .incomplete
  | .e2 => .incomplete
  | .e3 => .substantiated

/-- `SAFE_HARBOR_CATEGORIES`. -/
inductive SafeHarborCategory where
  | forwardLooking
  | emissionsEstimate
  | thirdPartyInformation
  deriving DecidableEq

inductive LocationQuality where
  | located
  | unlocated
  | unreadable
  deriving DecidableEq

/-- Whether a reference was verified. -/
inductive VerificationState where
  | verified
  | candidate
  | rejected
  deriving DecidableEq

structure Bbox where
  (x0 y0 x1 y1 : ℚ)
  width_pos : x0 < x1
  height_pos : y0 < y1
  deriving DecidableEq

theorem first_pos : 1 ≤ 1 :=
  Nat.le_refl 1

/-- `SourceRef`. -/
structure SourceRef where
  (sourceId documentVersionId parseManifestId : String)
  pageNum : Nat
  printedPageLabel : Option String
  bbox : Option Bbox
  (rawTextSha256 quote : String)
  (charStart charEnd : Nat)
  locationQuality : LocationQuality
  verificationState : VerificationState
  page_pos : 1 ≤ pageNum
  offsets_ordered : charStart ≤ charEnd
  deriving DecidableEq

/-- `LlmElement`. -/
structure LlmElement where
  elementId : String
  state : ElementState
  evidenceRefs : List SourceRef
  (normalizedValue creditedFrom reasonCode : Option String)
  present_sourced : state = .present → evidenceRefs ≠ []
  deriving DecidableEq

def LlmElement.make (elementId : String) (state : ElementState) (evidenceRefs : List SourceRef)
    (normalizedValue creditedFrom reasonCode : Option String) : Except PyError LlmElement :=
  if h : state = .present → evidenceRefs ≠ [] then
    .ok { elementId, state, evidenceRefs, normalizedValue, creditedFrom, reasonCode,
          present_sourced := h }
  else
    .error (.domainValidation
      "state=present requires at least one evidence_ref (source-less present is never accepted)")

/-- `LlmTags`. -/
structure LlmTags where
  (claimId packetSha256 : String)
  replicateId : Nat
  track : Track
  safeHarborCategory : Option SafeHarborCategory
  elements : List LlmElement
  superlativeQuote : Option String
  warnings : List String
  replicate_known : replicateId = 1 ∨ replicateId = 2 ∨ replicateId = 3

end ProofOps.Domain
