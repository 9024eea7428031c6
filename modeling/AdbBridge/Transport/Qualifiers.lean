import AdbBridge.World

/-!
# Device qualifiers

A client may name a device by what the device says of itself, as in `product:x`. `qual_match`
compares the name the client gives with the string of the device: it walks through the name as a C
string, one step for each byte of the string. A device may announce a string with a NUL in it, and
a NUL matches the terminator of the name; then the walk goes on behind it.

So the comparison is the equality of strings, and stays in the name, exactly if the name with its
terminator is not the beginning of a qualifier (`AdbBridge.qualifiersExact_iff`).
-/

namespace AdbBridge

open List

/-! ### The comparison -/

/-- `isalnum`, in the C locale. -/
def isAlnum (c : UInt8) : Bool :=
  (48 ≤ c && c ≤ 57) || (65 ≤ c && c ≤ 90) || (97 ≤ c && c ≤ 122)

/-- Each byte that is neither a letter nor a digit is replaced by `_`. -/
def sanitizeAlnum (s : Bytes) : Bytes := s.map fun c => if isAlnum c then c else 95

/-- Where a walk along a C string comes to. -/
inductive Walk
  | differs
  /-- A byte behind the terminator is read. -/
  | overrun
  | at (rest : Bytes)
  deriving DecidableEq, Repr

/-- Compare bytes with a C string; `ptr` is what there is up to the terminator and with it. -/
def walk : Bytes → Bytes → Walk
  | ptr, [] => .at ptr
  | [], _ :: _ => .overrun
  | b :: ptr, c :: cs => if c ≠ b then .differs else walk ptr cs

/-- The end of `qual_match`: is there a terminator? `none` for a byte behind it. -/
def Walk.atEnd : Walk → Option Bool
  | .differs => some false
  | .overrun => none
  | .at [] => none
  | .at (b :: _) => some (b == 0)

/-- `qual_match`; `none` if a byte behind the terminator of the name is read. -/
def qualMatch (toTest label qual : Bytes) (sanitizeQual : Bool) : Option Bool :=
  if toTest = [] then some qual.isEmpty
  else if qual = [] then some false
  else match walk (toTest ++ [0]) label with
    | .at ptr => (walk ptr (if sanitizeQual then sanitizeAlnum qual else qual)).atEnd
    | w => w.atEnd

/-- The qualifiers in `atransport::MatchesTarget`: the next one is looked at if the ones before do
not match. -/
def Atransport.matchesQualifier (t : Atransport) (target : Bytes) : Option Bool :=
  (qualMatch target (ascii "product:") t.product false).bind fun product =>
    if product then some true
    else (qualMatch target (ascii "model:") t.model true).bind fun model =>
      if model then some true
      else qualMatch target (ascii "device:") t.device false

/-- What is meant: the name is one of the qualifiers of the device. -/
def Atransport.IsQualifier (t : Atransport) (target : Bytes) : Prop :=
  (target ≠ [] ∧
    ((t.product ≠ [] ∧ target = ascii "product:" ++ t.product) ∨
      (t.model ≠ [] ∧ target = ascii "model:" ++ sanitizeAlnum t.model) ∨
      (t.device ≠ [] ∧ target = ascii "device:" ++ t.device))) ∨
    (target = [] ∧ (t.product = [] ∨ t.model = [] ∨ t.device = []))

/-- **Qualifiers match exactly**, and no byte behind the terminator is read. -/
def Atransport.QualifiersExact (t : Atransport) (target : Bytes) : Prop :=
  ∃ found, t.matchesQualifier target = some found ∧ (found = true ↔ t.IsQualifier target)

/-! ### Walking along a string -/

variable {target label qual : Bytes}

theorem walk_append (ptr cs cs' : Bytes) :
    walk ptr (cs ++ cs') =
      match walk ptr cs with
      | .at ptr' => walk ptr' cs'
      | w => w := by
  induction cs generalizing ptr with
  | nil => simp only [nil_append, walk]
  | cons c cs ih =>
    cases ptr with
    | nil => simp only [cons_append, walk]
    | cons b ptr =>
      simp only [cons_append, walk]
      split_ifs
      · rfl
      · exact ih ptr

/-- **The walk finds equality, unless it goes behind the terminator.** That happens if the bytes
begin with the whole C string. -/
theorem atEnd_walk (h : 0 ∉ target) (cs : Bytes) :
    (walk (target ++ [0]) cs).atEnd =
      if target ++ [0] <+: cs then none else some (decide (target = cs)) := by
  induction target generalizing cs with
  | nil =>
    cases cs with
    | nil => rfl
    | cons c cs =>
      by_cases hc : c = 0
      · subst hc
        rw [if_pos (by simp)]
        cases cs <;> rfl
      · rw [if_neg (by simpa using Ne.symm hc)]
        simp [walk, hc, Walk.atEnd]
  | cons b target ih =>
    obtain ⟨hb, htarget⟩ : b ≠ 0 ∧ 0 ∉ target := by
      simp only [mem_cons, not_or] at h
      exact ⟨Ne.symm h.1, h.2⟩
    cases cs with
    | nil => simp [walk, Walk.atEnd, hb]
    | cons c cs =>
      by_cases hc : c = b
      · subst hc
        have hwalk : walk (c :: target ++ [0]) (c :: cs) = walk (target ++ [0]) cs :=
          if_neg (not_not.mpr rfl)
        rw [hwalk, ih htarget]
        simp
      · simp [walk, hc, Walk.atEnd, Ne.symm hc]

/-- The string that `qual_match` compares the name with. -/
def qualifier (label qual : Bytes) (sanitizeQual : Bool) : Bytes :=
  label ++ if sanitizeQual then sanitizeAlnum qual else qual

/-- **`qual_match` of a name without a NUL.** -/
theorem qualMatch_eq (h : 0 ∉ target) (hne : target ≠ []) (label qual : Bytes)
    (hlabel : 0 ∉ label) (sanitizeQual : Bool) :
    qualMatch target label qual sanitizeQual =
      if target ++ [0] <+: qualifier label qual sanitizeQual then none
      else some (decide (qual ≠ [] ∧ target = qualifier label qual sanitizeQual)) := by
  rw [qualMatch, if_neg hne]
  by_cases hqual : qual = []
  · have hlabel' : qualifier label qual sanitizeQual = label := by
      cases sanitizeQual <;> simp [qualifier, hqual, sanitizeAlnum]
    rw [if_pos hqual, if_neg, decide_eq_false (fun hand => hand.1 hqual)]
    intro hprefix
    exact hlabel (hlabel' ▸ hprefix.subset (by simp))
  · have hwalk := atEnd_walk h (qualifier label qual sanitizeQual)
    rw [qualifier, walk_append] at hwalk
    simp only [hqual, if_false, ne_eq, not_false_eq_true, true_and, qualifier]
    rw [← hwalk]
    cases walk (target ++ [0]) label <;> rfl

theorem zero_notMem_sanitizeAlnum (s : Bytes) : 0 ∉ sanitizeAlnum s := by
  intro hmem
  obtain ⟨c, -, hc⟩ := mem_map.mp hmem
  by_cases halnum : isAlnum c = true
  · rw [if_pos halnum] at hc
    subst hc
    exact absurd halnum (by decide)
  · rw [if_neg halnum] at hc
    exact absurd hc (by decide)

/-- A sanitized qualifier has no NUL that could match the terminator. -/
theorem not_prefix_sanitized (hlabel : 0 ∉ label) :
    ¬ target ++ [0] <+: qualifier label qual true := by
  intro hprefix
  have hmem : (0 : UInt8) ∈ label ++ sanitizeAlnum qual := hprefix.subset (by simp)
  rcases mem_append.mp hmem with hmem | hmem
  · exact hlabel hmem
  · exact zero_notMem_sanitizeAlnum qual hmem

/-- A name begins with one label only. -/
theorem not_prefix_of_head {a b : UInt8} (hab : a ≠ b) (as bs : Bytes) :
    ¬ a :: as <+: b :: bs := fun hprefix => hab (cons_prefix_cons.mp hprefix).1

/-! ### The qualifiers of a device -/

/-- **Qualifiers match exactly, and within the name, if and only if** the name with its terminator
is not the beginning of the product or of the device as a qualifier. -/
theorem qualifiersExact_iff (t : Atransport) (h : 0 ∉ target) :
    t.QualifiersExact target ↔
      ¬ target ++ [0] <+: ascii "product:" ++ t.product ∧
        ¬ target ++ [0] <+: ascii "device:" ++ t.device := by
  by_cases hne : target = []
  · subst hne
    refine iff_of_true ⟨t.product.isEmpty || t.model.isEmpty || t.device.isEmpty, ?_, ?_⟩
      ⟨?_, ?_⟩
    · rw [Atransport.matchesQualifier]
      simp only [qualMatch, if_pos]
      cases t.product.isEmpty <;> cases t.model.isEmpty <;> rfl
    · simp [Atransport.IsQualifier, or_assoc]
    · exact not_prefix_of_head (by decide) [] (_ ++ t.product)
    · exact not_prefix_of_head (by decide) [] (_ ++ t.device)
  · have hproduct := qualMatch_eq h hne (ascii "product:") t.product (by decide) false
    have hmodel := qualMatch_eq h hne (ascii "model:") t.model (by decide) true
    have hdevice := qualMatch_eq h hne (ascii "device:") t.device (by decide) false
    rw [if_neg (not_prefix_sanitized (by decide))] at hmodel
    have hmeaning : t.IsQualifier target ↔
        (t.product ≠ [] ∧ target = qualifier (ascii "product:") t.product false) ∨
          (t.model ≠ [] ∧ target = qualifier (ascii "model:") t.model true) ∨
          (t.device ≠ [] ∧ target = qualifier (ascii "device:") t.device false) := by
      rw [Atransport.IsQualifier, and_iff_right hne, or_iff_left fun hand => hne hand.1]
      rfl
    rw [Atransport.QualifiersExact, Atransport.matchesQualifier, hproduct, hmodel, hdevice,
      hmeaning]
    change _ ↔ ¬ target ++ [0] <+: qualifier (ascii "product:") t.product false ∧
      ¬ target ++ [0] <+: qualifier (ascii "device:") t.device false
    -- The qualifiers one after the other, as they are looked at.
    by_cases hover : target ++ [0] <+: qualifier (ascii "product:") t.product false
    · refine iff_of_false ?_ (fun hand => hand.1 hover)
      rintro ⟨found, hfound, -⟩
      rw [if_pos hover] at hfound
      cases hfound
    rw [if_neg hover, Option.bind_some, Option.bind_some]
    by_cases hisProduct : t.product ≠ [] ∧ target = qualifier (ascii "product:") t.product false
    · refine iff_of_true ⟨true, if_pos (decide_eq_true hisProduct), ?_⟩ ⟨hover, ?_⟩
      · exact iff_of_true rfl (.inl hisProduct)
      · rw [hisProduct.2]
        exact not_prefix_of_head (by decide) _ _
    rw [if_neg (by simpa using hisProduct)]
    by_cases hisModel : t.model ≠ [] ∧ target = qualifier (ascii "model:") t.model true
    · refine iff_of_true ⟨true, if_pos (decide_eq_true hisModel), ?_⟩ ⟨hover, ?_⟩
      · exact iff_of_true rfl (.inr (.inl hisModel))
      · rw [hisModel.2]
        exact not_prefix_of_head (by decide) _ _
    rw [if_neg (by simpa using hisModel)]
    by_cases hover' : target ++ [0] <+: qualifier (ascii "device:") t.device false
    · refine iff_of_false ?_ (fun hand => hand.2 hover')
      rintro ⟨found, hfound, -⟩
      rw [if_pos hover'] at hfound
      cases hfound
    · refine iff_of_true ⟨_, if_neg hover', ?_⟩ ⟨hover, hover'⟩
      rw [decide_eq_true_iff, or_iff_right hisProduct, or_iff_right hisModel]

/-- A device whose model has bytes that are replaced. -/
def namedDevice : Atransport := { product := ascii "a", model := ascii "b-c", device := ascii "d" }

theorem qualifiersExact_namedDevice : namedDevice.QualifiersExact (ascii "model:b_c") :=
  (qualifiersExact_iff namedDevice (by decide)).mpr ⟨by decide, by decide⟩

/-- A device that announces a product with a NUL. -/
def nulDevice : Atransport := { product := [97, 0, 98] }

/-- **The terminator of the name matches the NUL**, and the next byte is read. -/
theorem not_qualifiersExact_nulDevice :
    0 ∉ ascii "product:a" ∧ ¬ nulDevice.QualifiersExact (ascii "product:a") := by
  refine ⟨by decide, ?_⟩
  rintro ⟨found, hfound, -⟩
  have hnone : nulDevice.matchesQualifier (ascii "product:a") = none := by decide
  rw [hnone] at hfound
  cases hfound

end AdbBridge
