import MultiCluster.Deploy.Options
import MultiCluster.Proofs.Ordered

/-! Which options are valid, and the plans they make. A plan depends on the components as a set, on
the network of the range and on the size of the blocks, not on how they were written. -/
namespace MultiCluster

namespace Component

variable {requested others : List String}

theorem validate_ok_iff : validate requested = .ok () ↔
    requested ≠ [] ∧ ∀ c ∈ requested, c ∈ requestable := by
  unfold validate
  split
  · next empty => simp [List.isEmpty_iff.mp empty]
  · next some =>
    cases found : unknown? requested with
    | some c =>
      have unknown := List.find?_some found
      have member := List.mem_of_find?_eq_some found
      simp only [Bool.not_eq_true', List.contains_eq_mem, decide_eq_false_iff_not] at unknown
      simp only [reduceCtorEq, false_iff, not_and]
      exact fun _ known => unknown (known c member)
    | none =>
      have known := List.find?_eq_none.mp found
      simp only [List.contains_eq_mem, Bool.not_eq_true', decide_eq_false_iff_not,
        not_not] at known
      simpa using ⟨fun empty => some (by simp [empty]), known⟩

theorem validate_congr (same : ∀ c, c ∈ requested ↔ c ∈ others)
    (valid : validate requested = .ok ()) : validate others = .ok () := by
  rw [validate_ok_iff] at valid ⊢
  obtain ⟨some, known⟩ := valid
  obtain ⟨c, member⟩ := List.exists_mem_of_ne_nil _ some
  exact ⟨List.ne_nil_of_mem ((same c).mp member), fun c inOthers => known c ((same c).mpr inOthers)⟩

theorem invalid_of_validate {e : Error} (refused : validate requested = .error e) :
    ∃ m, e = .invalidConfiguration m := by
  unfold validate at refused
  split at refused
  · exact ⟨_, (Except.error.inj refused).symm⟩
  · split at refused
    · exact ⟨_, (Except.error.inj refused).symm⟩
    · cases refused

end Component

namespace Globalnet

variable {spec spec' : BrokerSpec} {range range' : String} {block : Block}

theorem settle_disabled (off : spec.globalnetEnabled = false) : settle spec = (.ok (), spec) := by
  simp [settle, off]

theorem settle_ok_iff (on : spec.globalnetEnabled = true) : settle spec = (.ok (), spec') ↔
    ∃ size block, blockSize spec.globalnetRange spec.clusterSize = .ok size ∧
      checkRange spec.globalnetRange = .ok () ∧ Block.parse spec.globalnetRange = .ok block ∧
      spec' = { spec with globalnetRange := block.text, clusterSize := size } := by
  simp only [settle, on, Bool.not_true, Bool.false_eq_true, if_false]
  cases sized : blockSize spec.globalnetRange spec.clusterSize with
  | error e => simp
  | ok size =>
    cases checked : checkRange spec.globalnetRange with
    | error e => simp
    | ok _ =>
      cases parsed : Block.parse spec.globalnetRange with
      | error e => simp
      | ok block => simp [eq_comm]

theorem invalid_of_parse {e : Error} (refused : Block.parse range = .error e) :
    ∃ m, e = .invalidConfiguration m := by
  unfold Block.parse at refused
  simp only at refused
  split at refused
  · exact ⟨_, (Except.error.inj refused).symm⟩
  · split at refused
    · exact ⟨_, (Except.error.inj refused).symm⟩
    · split at refused
      · exact ⟨_, (Except.error.inj refused).symm⟩
      · split at refused
        · cases refused
        · exact ⟨_, (Except.error.inj refused).symm⟩

theorem invalid_of_blockSize {e : Error} {size : UInt32}
    (refused : blockSize range size = .error e) : ∃ m, e = .invalidConfiguration m := by
  unfold blockSize at refused
  cases parsed : Block.parse range with
  | error e' =>
    rw [parsed] at refused
    obtain rfl := Except.error.inj refused
    exact invalid_of_parse parsed
  | ok block =>
    simp only [parsed, bind, Except.bind] at refused
    split at refused
    · exact ⟨_, (Except.error.inj refused).symm⟩
    · split at refused
      · cases refused
      · split at refused
        · exact ⟨_, (Except.error.inj refused).symm⟩
        · cases refused

theorem invalid_of_checkRange {e : Error} (refused : checkRange range = .error e) :
    ∃ m, e = .invalidConfiguration m := by
  unfold checkRange at refused
  cases parsed : Block.parse range with
  | error e' =>
    rw [parsed] at refused
    obtain rfl := Except.error.inj refused
    exact invalid_of_parse parsed
  | ok block =>
    simp only [parsed, bind, Except.bind] at refused
    split at refused
    · cases refused
    · exact ⟨_, (Except.error.inj refused).symm⟩

theorem parse_of_blockSize {r size : UInt32} (accepted : blockSize range r = .ok size) :
    ∃ block, Block.parse range = .ok block := by
  cases parsed : Block.parse range with
  | ok block => exact ⟨block, rfl⟩
  | error e => simp [blockSize, parsed, bind, Except.bind] at accepted

/-- Settings are refused for their size, and left alone, or for their range, and left with the size
that was found. -/
theorem settle_error_iff {e : Error} : settle spec = (.error e, spec') ↔ spec.globalnetEnabled = true ∧
    (blockSize spec.globalnetRange spec.clusterSize = .error e ∧ spec' = spec ∨
      ∃ size, blockSize spec.globalnetRange spec.clusterSize = .ok size ∧
        checkRange spec.globalnetRange = .error e ∧ spec' = { spec with clusterSize := size }) := by
  cases on : spec.globalnetEnabled with
  | false => simp [settle_disabled on]
  | true =>
    simp only [settle, on, Bool.not_true, Bool.false_eq_true, if_false, true_and]
    cases sized : blockSize spec.globalnetRange spec.clusterSize with
    | error e' => simp [eq_comm]
    | ok size =>
      obtain ⟨block, parsed⟩ := parse_of_blockSize sized
      -- A size is found only in a range that can be read, so the last reading cannot fail.
      cases checked : checkRange spec.globalnetRange with
      | error e' => simp [eq_comm]
      | ok _ => simp [parsed]

theorem invalid_of_settle {e : Error} (refused : settle spec = (.error e, spec')) :
    ∃ m, e = .invalidConfiguration m := by
  obtain ⟨-, ⟨unsized, -⟩ | ⟨size, -, barred, -⟩⟩ := settle_error_iff.mp refused
  · exact invalid_of_blockSize unsized
  · exact invalid_of_checkRange barred

/-- Whether a range will do depends on its network alone. -/
theorem checkRange_congr (parsed : Block.parse range = .ok block)
    (parsed' : Block.parse range' = .ok block) (ok : checkRange range = .ok ()) :
    checkRange range' = .ok () := by
  simp only [checkRange, parsed, parsed', bind, Except.bind] at ok ⊢
  cases found : reserved.find? fun r => block.overlaps r.block with
  | none => rfl
  | some r =>
    rw [found] at ok
    cases ok

end Globalnet

namespace Deploy

variable {o : Options} {p : Plan}

def Options.operatorImage (o : Options) : String :=
  (Image.Source.of o.repository o.imageVersion o.imageOverrides).resolve Image.operator

theorem plan_ok_iff : plan o = .ok p ↔ Component.validate o.broker.components = .ok () ∧
    ∃ spec, Globalnet.settle o.broker = (.ok (), spec) ∧ p = {
      namespaceName := o.brokerNamespace
      broker := spec.normalized
      rights := ⟨o.brokerNamespace,
        Component.effective spec.normalized.components spec.normalized.globalnetEnabled⟩
      operator := ⟨operatorNamespace, o.operatorImage, o.operatorDebug⟩ } := by
  unfold plan
  cases Component.validate o.broker.components with
  | error e => simp [bind, Except.bind]
  | ok _ =>
    rcases Globalnet.settle o.broker with ⟨_ | _, spec⟩
    · simp [bind, Except.bind]
    · simp [bind, Except.bind, pure, Except.pure, Options.operatorImage, eq_comm]

/-- Options are refused as such, before anything else can go wrong. -/
theorem invalid_of_plan {e : Error} (refused : plan o = .error e) :
    ∃ m, e = .invalidConfiguration m := by
  unfold plan at refused
  cases valid : Component.validate o.broker.components with
  | error e' =>
    rw [valid] at refused
    obtain rfl := Except.error.inj refused
    exact Component.invalid_of_validate valid
  | ok _ =>
    rcases settled : Globalnet.settle o.broker with ⟨e' | _, spec⟩
    · simp only [valid, settled, bind, Except.bind] at refused
      obtain rfl := Except.error.inj refused
      exact Globalnet.invalid_of_settle settled
    · simp only [valid, settled, bind, Except.bind, pure, Except.pure] at refused
      cases refused

theorem flag_of_plan (planned : plan o = .ok p) :
    p.broker.globalnetEnabled = o.broker.globalnetEnabled := by
  obtain ⟨-, spec, settled, rfl⟩ := plan_ok_iff.mp planned
  have kept : spec.globalnetEnabled = o.broker.globalnetEnabled := by
    cases on : o.broker.globalnetEnabled with
    | false =>
      rw [Globalnet.settle_disabled on] at settled
      obtain ⟨-, rfl⟩ := Prod.mk.inj settled
      exact on
    | true =>
      obtain ⟨_, _, -, -, -, rfl⟩ := (Globalnet.settle_ok_iff on).mp settled
      exact on
  show spec.normalized.globalnetEnabled = _
  cases flag : spec.globalnetEnabled <;> simp [BrokerSpec.normalized, flag, ← kept]

end Deploy
end MultiCluster
