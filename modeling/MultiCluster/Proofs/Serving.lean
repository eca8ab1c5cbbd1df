import MultiCluster.Cluster.Client
import MultiCluster.Proofs.Surroundings
import MultiCluster.Proofs.Version

/-! What requests do to a server. Each changes at most the object that it is about, every object
that is written gets a new version, and a server that fails to answer has done either all of what
was asked or nothing. -/
namespace MultiCluster.Cluster

namespace Store

variable {p q : Path} {v : Json} {s : Store}

@[simp] theorem find?_put_self : find? p (put p v s) = some v := by
  induction s with
  | nil => simp [put, find?]
  | cons head rest ih =>
    obtain ⟨r, w⟩ := head
    by_cases same : r = p
    · simp [put, find?, same]
    · simpa [put, find?, same] using ih

theorem find?_put_of_ne (other : q ≠ p) : find? q (put p v s) = find? q s := by
  induction s with
  | nil => simp [put, find?, other.symm]
  | cons head rest ih =>
    obtain ⟨r, w⟩ := head
    by_cases same : r = p
    · simp [put, find?, same, other.symm]
    · by_cases found : r = q
      · subst found
        simp [put, find?, same]
      · simpa [put, find?, same, found] using ih

theorem find?_erase_of_ne (other : q ≠ p) : find? q (erase p s) = find? q s := by
  induction s with
  | nil => rfl
  | cons head rest ih =>
    obtain ⟨r, w⟩ := head
    unfold erase at ih ⊢
    by_cases same : r = p
    · simp [find?, same, other.symm, ih]
    · by_cases found : r = q
      · subst found
        simp [find?, same]
      · simp [find?, same, found, ih]

end Store

def Request.target (r : Request) : Path :=
  match r.method with
  | .post => r.path ++ [((r.body.getD .null).textAt? ["metadata", "name"]).getD ""]
  | _ => r.path

def Reply.IsFailure (reply : Reply) : Prop := ∀ p v, reply.payload = .ok p → p.value ≠ .ok v

namespace Server

variable {s s' : Server} {r : Request} {p q : Path} {v : Json}

/-- What may come of a call to a server that may fail: it answers, or it refuses or loses the
answer, having done what was asked or not. -/
def Exchange : Surroundings Calls Server
  | .pause _, s, _, s' => s' = s
  | .send r, s, (reply : Reply), s' =>
    (reply, s') = s.serve r ∨ (reply.IsFailure ∧ (s' = s ∨ s' = (s.serve r).2))

@[simp] theorem find?_write_self :
    (s.write p v).2.objects.find? p = some (withVersion (s.version + 1) v) := by
  simp [write]

theorem find?_write_of_ne (other : q ≠ p) :
    (s.write p v).2.objects.find? q = s.objects.find? q := by
  simp [write, Store.find?_put_of_ne other]

theorem find?_serve_of_ne (other : q ≠ r.target) :
    (s.serve r).2.objects.find? q = s.objects.find? q := by
  unfold Request.target at other
  unfold serve
  cases method : r.method <;> simp only [method] at other ⊢
  · unfold create
    simp only
    split
    · rfl
    · exact find?_write_of_ne other
  · unfold replace
    simp only
    split
    · rfl
    · split
      · rfl
      · exact find?_write_of_ne other
  · unfold patch
    simp only
    split
    · split
      · exact find?_write_of_ne other
      · rfl
    · split
      · rfl
      · exact find?_write_of_ne other
  · unfold delete
    split
    · rfl
    · exact Store.find?_erase_of_ne other

theorem version_serve : s.version ≤ (s.serve r).2.version := by
  unfold serve
  split
  · exact le_rfl
  · unfold create
    simp only
    split <;> simp [write]
  · unfold replace
    simp only
    split
    · simp
    · split <;> simp [write]
  · unfold patch
    simp only
    split <;> split <;> simp [write]
  · unfold delete
    split <;> simp

theorem faults_serve : (s.serve r).2.faults = s.faults := by
  unfold serve
  split
  · rfl
  · unfold create
    simp only
    split <;> rfl
  · unfold replace
    simp only
    split
    · rfl
    · split <;> rfl
  · unfold patch
    simp only
    split <;> split <;> rfl
  · unfold delete
    split <;> rfl

theorem Exchange.cases {c : Call} {a : Calls.Answer c} (exchange : Exchange c s a s') :
    s' = s ∨ ∃ r, c = .send r ∧ s' = (s.serve r).2 := by
  cases c with
  | pause w => exact .inl exchange
  | send r =>
    rcases exchange with answered | ⟨-, nothing | all⟩
    · exact .inr ⟨r, rfl, congrArg Prod.snd answered⟩
    · exact .inl nothing
    · exact .inr ⟨r, rfl, all⟩

def AboutOnly (p : Path) (c : Call) : Prop := ∀ r, c = .send r → r.target = p

theorem Exchange.elsewhere {c : Call} {a : Calls.Answer c} (exchange : Exchange c s a s')
    (about : AboutOnly p c) (other : q ≠ p) : s'.objects.find? q = s.objects.find? q := by
  rcases exchange.cases with rfl | ⟨r, rfl, rfl⟩
  · rfl
  · exact find?_serve_of_ne (about r rfl ▸ other)

theorem Exchange.faults {c : Call} {a : Calls.Answer c} (exchange : Exchange c s a s') :
    s'.faults = s.faults := by
  rcases exchange.cases with rfl | ⟨r, rfl, rfl⟩
  · rfl
  · exact faults_serve

theorem Exchange.version {c : Call} {a : Calls.Answer c} (exchange : Exchange c s a s') :
    s.version ≤ s'.version := by
  rcases exchange.cases with rfl | ⟨r, rfl, rfl⟩
  · exact le_rfl
  · exact version_serve

end Server
end MultiCluster.Cluster
