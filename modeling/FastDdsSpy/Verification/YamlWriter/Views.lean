import FastDdsSpy.Model.YamlViews
import FastDdsSpy.Verification.YamlWriter.Instances

/-! # What the views tell

Several texts of a view are put together without quoting. Two results have the same YAML exactly
when they agree in all that these texts tell. -/

namespace FastDdsSpy.YamlWriter

/-! ## Delimiters -/

/-- A text is cut at the last place of a delimiter. -/
theorem append_cons_inj_of_notMem {α : Type*} {c : α} {a a' b b' : List α} (hb : c ∉ b)
    (hb' : c ∉ b') : a ++ c :: b = a' ++ c :: b' ↔ a = a' ∧ b = b' := by
  constructor
  · intro h
    rcases List.append_eq_append_iff.mp h with ⟨x, rfl, hx⟩ | ⟨x, rfl, hx⟩
    · cases x with
      | nil => exact ⟨(List.append_nil a).symm, (List.cons.inj hx).2⟩
      | cons y x =>
          rw [(List.cons.inj hx).2] at hb
          exact absurd (List.mem_append_right x List.mem_cons_self) hb
    · cases x with
      | nil => exact ⟨List.append_nil a', (List.cons.inj hx).2.symm⟩
      | cons y x =>
          rw [(List.cons.inj hx).2] at hb'
          exact absurd (List.mem_append_right x List.mem_cons_self) hb'
  · intro h
    obtain ⟨rfl, rfl⟩ := h
    rfl

/-- It is cut at the first place as well. -/
theorem cons_append_inj_of_notMem {α : Type*} {c : α} {a a' b b' : List α} (ha : c ∉ a)
    (ha' : c ∉ a') : a ++ c :: b = a' ++ c :: b' ↔ a = a' ∧ b = b' := by
  rw [← List.reverse_inj, List.reverse_append, List.reverse_append, List.reverse_cons,
    List.reverse_cons, List.append_assoc, List.append_assoc, List.singleton_append,
    List.singleton_append, append_cons_inj_of_notMem (by simpa using ha) (by simpa using ha'),
    List.reverse_inj, List.reverse_inj, and_comm]

theorem append_inj_right {a b : String} (c : String) : a ++ c = b ++ c ↔ a = b := by
  rw [← String.toList_inj, String.toList_append, String.toList_append,
    List.append_cancel_right_eq, String.toList_inj]

theorem toList_toString (n : ℕ) : (toString n).toList = Nat.toDigits 10 n := by
  rw [Nat.toString_eq_ofList_toDigits, String.toList_ofList]

theorem notMem_toString {c : Char} (hc : c.isDigit = false) (n : ℕ) : c ∉ (toString n).toList := by
  rw [toList_toString]
  intro hmem
  rw [Nat.isDigit_of_mem_toDigits (by decide) (by decide) hmem] at hc
  cases hc

theorem toString_inj {m n : ℕ} : (toString m).toList = (toString n).toList ↔ m = n := by
  rw [toList_toString, toList_toString]
  constructor
  · intro h
    rw [← Nat.ofDigitChars_ten_toDigits (n := m), h, Nat.ofDigitChars_ten_toDigits]
  · intro h
    rw [h]

/-- `name [type]`. -/
theorem setTopic_eq_iff {name name' type type' : String} :
    setTopic name type = setTopic name' type' ↔ name ++ " [" ++ type = name' ++ " [" ++ type' := by
  rw [setTopic, setTopic, YamlNode.scalar.injEq, append_inj_right]

/-- GUIDs as decimals, all rates alike, vectors as in the YAML library. -/
def plainViews : ViewSupport where
  guidToString guid := toString guid.guidPrefix.toNat ++ "|" ++ toString guid.entityId.toNat
  rateToString _ := "0"
  rateToDecimal _ := "0.000000"
  timestampToString seconds := toString seconds
  setCollection items := if items = [] then .null else .sequence items .default
  guidToString_injective := by
    intro guid guid' h
    have htext (guid : Guid) :
        (toString guid.guidPrefix.toNat ++ "|" ++ toString guid.entityId.toNat).toList =
          (toString guid.guidPrefix.toNat).toList ++
            '|' :: (toString guid.entityId.toNat).toList := by
      simp
    rw [← String.toList_inj, htext, htext,
      cons_append_inj_of_notMem (notMem_toString rfl _) (notMem_toString rfl _), toString_inj,
      toString_inj, BitVec.toNat_inj, BitVec.toNat_inj] at h
    exact congrArg₂ Guid.mk h.1 h.2
  bracket_notMem_guidToString guid := by
    simp only [String.toList_append, List.mem_append, not_or]
    exact ⟨⟨notMem_toString rfl _, by decide⟩, notMem_toString rfl _⟩
  bracket_notMem_rateToDecimal _ := by decide
  setCollection_injective := by
    intro items items' h
    grind

variable (vs : ViewSupport)

example : setTopicEndpoint plainViews ⟨⟨1, 2⟩, ""⟩ = setTopicEndpoint plainViews ⟨⟨1, 2⟩, "\"\""⟩ :=
  rfl

theorem setDdsData_eq_iff (d d' : DdsDataData) :
    setDdsData vs d = setDdsData vs d' ↔
      d.topicName ++ " [" ++ d.topicType = d'.topicName ++ " [" ++ d'.topicType ∧
        d.writer = d'.writer ∧ d.partitions = d'.partitions ∧
        vs.timestampToString d.timestamp.seconds = vs.timestampToString d'.timestamp.seconds := by
  simp only [setDdsData, YamlNode.map.injEq, List.cons.injEq, Prod.mk.injEq,
    YamlNode.scalar.injEq, true_and, and_true, vs.guidToString_injective.eq_iff, setTopic_eq_iff]

section Results

variable {φ τ κ : Type*} (ds : DoubleSupport φ) (nt : NumberText (JsonNumber φ)) (env : External)

end Results

end FastDdsSpy.YamlWriter
