import Mathlib.Data.List.Forall2
import Mathlib.Data.List.ReduceOption
import Provision.Engine.Mock
import Provision.Proofs.Engine.Serving

/-!
# Orders of arrival at a mock engine

Expectations and requests are matched by a key: the operation, with a type and a name, a token, a
URN or the name of a package. A request takes the earliest expectation with its key, and leaves all
others alone (`meets_send`). So the requests with one key are answered by the expectations with this
key, one by one, whatever arrives between them (`exchangesWith_eq`), and the order in which requests
with different keys arrive is not observed (`arrival_order_unobserved`).
-/

namespace Provision

/-- What requests and expectations are matched by. -/
inductive MatchKey where
  | register (type name : String)
  | read (type name : String)
  | call (token : String)
  | outputs (urn : String)
  | package (name : String)
  deriving DecidableEq

namespace MatchKey

/-- The name of the operation in failures. -/
def operation : MatchKey → String
  | .register .. => Engine.Operation.register
  | .read .. => Engine.Operation.read
  | .call .. => Engine.Operation.call
  | .outputs .. => Engine.Operation.registerOutputs
  | .package .. => Engine.Operation.registerPackage

def describe : MatchKey → String
  | .register type name => Expectation.describeRegister type name
  | .read type name => Expectation.describeRead type name
  | .call token => Expectation.describeCall token
  | .outputs urn => Expectation.describeOutputs urn
  | .package name => Expectation.describePackage name

def unexpected (key : MatchKey) : Failure :=
  .rpc key.operation ("unexpected request: " ++ key.describe)

end MatchKey

namespace Request

/-- The key of a request. A question about a feature has none. -/
def matchKey? : Request → Option MatchKey
  | .feature _ => none
  | .register r => some (.register r.type r.name)
  | .read r => some (.read r.type r.name)
  | .call r => some (.call r.token)
  | .outputs r => some (.outputs r.urn)
  | .package r => some (.package r.name)

def withKey (key : MatchKey) (requests : List Request) : List Request :=
  requests.filter fun request => request.matchKey? = some key

theorem withKey_cons (key : MatchKey) (request : Request) (rest : List Request) :
    withKey key (request :: rest) =
      if request.matchKey? = some key then request :: withKey key rest else withKey key rest := by
  unfold withKey
  rw [List.filter_cons]
  simp only [decide_eq_true_eq]

end Request

namespace Expectation

def matchKey : Expectation → MatchKey
  | .register type name _ => .register type name
  | .read type name _ => .read type name
  | .call token _ => .call token
  | .outputs urn _ => .outputs urn
  | .package name _ => .package name

def withKey (key : MatchKey) (expectations : List Expectation) : List Expectation :=
  expectations.filter fun e => e.matchKey = key

/-- What an expectation answers to a request of any kind, if it matches. -/
def answer? (request : Request) (e : Expectation) : Option (Except Failure Response) :=
  match request with
  | .feature _ => none
  | .register r => (e.register? r).map fun answer => answer.map .register
  | .read r => (e.read? r).map fun answer => answer.map .read
  | .call r => (e.call? r).map fun answer => answer.map .call
  | .outputs r => (e.outputs? r).map fun answer => answer.map fun _ => .outputs
  | .package r => (e.package? r).map fun answer => answer.map .package

/-- An expectation answers the requests with its key. -/
theorem answer?_eq_none {request : Request} {e : Expectation} :
    e.answer? request = none ↔ request.matchKey? ≠ some e.matchKey := by
  cases request <;> cases e <;>
    simp [answer?, Request.matchKey?, matchKey, register?, read?, call?, outputs?, package?,
      eq_comm]

end Expectation

namespace Mock

/-- The first expectation that answers is taken out, if there is one. -/
theorem take?_cases {α : Type} (answer? : Expectation → Option α)
    (expectations : List Expectation) :
    (∃ before e after answer, expectations = before ++ e :: after ∧
      (∀ other ∈ before, answer? other = none) ∧ answer? e = some answer ∧
      take? answer? expectations = some (answer, before ++ after)) ∨
    (∀ e ∈ expectations, answer? e = none) ∧ take? answer? expectations = none := by
  induction expectations with
  | nil => exact .inr ⟨by simp, rfl⟩
  | cons e rest ih =>
    cases found : answer? e with
    | some answer => exact .inl ⟨[], e, rest, answer, rfl, by simp, found, by simp [take?, found]⟩
    | none =>
      rcases ih with ⟨before, e', after, answer, rfl, earlier, here, taken⟩ | ⟨nothing, taken⟩
      · refine .inl ⟨e :: before, e', after, answer, rfl, ?_, here, by simp [take?, found, taken]⟩
        simpa [found] using earlier
      · exact .inr ⟨by simpa [found] using nothing, by simp [take?, found, taken]⟩

/-- What becomes of a request: the answer, and the mock after it. -/
inductive Meets (mock : Mock) : Request → Except Failure Response → Mock → Prop where
  | asked (r : FeatureRequest) :
      Meets mock (.feature r) (.ok (.feature ⟨mock.features.contains r.id⟩)) mock
  | expected {request : Request} {before after : List Expectation} {e : Expectation}
      {answer : Except Failure Response} (here : mock.expectations = before ++ e :: after)
      (first : ∀ other ∈ before, request.matchKey? ≠ some other.matchKey)
      (fits : request.matchKey? = some e.matchKey) (answers : e.answer? request = some answer) :
      Meets mock request answer
        { mock with expectations := before ++ after, requests := mock.requests ++ [request] }
  | unexpected {request : Request} {key : MatchKey} (keyed : request.matchKey? = some key)
      (nothing : ∀ e ∈ mock.expectations, e.matchKey ≠ key) :
      Meets mock request (.error key.unexpected)
        { mock with
          requests := mock.requests ++ [request]
          unexpected := mock.unexpected ++ [key.describe] }

/-- Requests of all kinds but questions about features are answered in one way. -/
theorem meets_reply {α : Type} {answer? : Expectation → Option (Except Failure α)}
    {wrap : α → Response} {request : Request} (key : MatchKey)
    (keyed : request.matchKey? = some key)
    (same : ∀ e : Expectation, e.answer? request = (answer? e).map fun answer => answer.map wrap)
    (mock : Mock) :
    Meets mock request
      ((reply answer? key.operation key.describe request mock).1.map wrap)
      (reply answer? key.operation key.describe request mock).2 := by
  have misses {e : Expectation} (none : answer? e = none) :
      request.matchKey? ≠ some e.matchKey := by
    rw [← Expectation.answer?_eq_none, same, none, Option.map_none]
  unfold reply
  rcases take?_cases answer? mock.expectations with
    ⟨before, e, after, answer, here, earlier, found, taken⟩ | ⟨nothing, taken⟩
  · rw [taken]
    have answers : e.answer? request = some (answer.map wrap) := by
      rw [same, found, Option.map_some]
    refine .expected here (fun other member => misses (earlier other member)) ?_ answers
    by_contra other
    rw [Expectation.answer?_eq_none.mpr other] at answers
    cases answers
  · rw [taken]
    refine .unexpected keyed fun e member sameKey => misses (nothing e member) ?_
    rw [keyed, sameKey]

/-- What the mock does with a request. -/
theorem meets_send (request : Request) (mock : Mock) :
    Meets mock request (engine.send request mock).1 (engine.send request mock).2 := by
  cases request with
  | feature r => exact .asked r
  | register r => exact meets_reply (.register r.type r.name) rfl (fun _ => rfl) mock
  | read r => exact meets_reply (.read r.type r.name) rfl (fun _ => rfl) mock
  | call r => exact meets_reply (.call r.token) rfl (fun _ => rfl) mock
  | outputs r => exact meets_reply (.outputs r.urn) rfl (fun _ => rfl) mock
  | package r => exact meets_reply (.package r.name) rfl (fun _ => rfl) mock

/-! ### Requests that arrive one after another -/

def exchanges (requests : List Request) (mock : Mock) :
    List (Request × Except Failure Response) :=
  requests.zip (engine.sendAll requests mock).1

/-- The requests with a key, in their order, with their answers. -/
def exchangesWith (key : MatchKey) (requests : List Request) (mock : Mock) :
    List (Request × Except Failure Response) :=
  (exchanges requests mock).filter fun exchange => exchange.1.matchKey? = some key

/-- Requests with a key that are answered by expectations one by one, as far as these go. -/
def inTurn (key : MatchKey) :
    List Expectation → List Request → List (Request × Except Failure Response)
  | _, [] => []
  | [], request :: rest => (request, .error key.unexpected) :: inTurn key [] rest
  | e :: es, request :: rest =>
    (request, (e.answer? request).getD (.error key.unexpected)) :: inTurn key es rest

/-- Where an answer comes from. -/
inductive AnsweredBy : Request × Except Failure Response → Option Expectation → Prop where
  | nobody {request : Request} {answer : Except Failure Response}
      (asked : request.matchKey? = none) : AnsweredBy (request, answer) none
  | expectation {request : Request} {answer : Except Failure Response} {e : Expectation}
      (fits : request.matchKey? = some e.matchKey) (answers : e.answer? request = some answer) :
      AnsweredBy (request, answer) (some e)
  | unexpected {request : Request} {key : MatchKey} (keyed : request.matchKey? = some key) :
      AnsweredBy (request, .error key.unexpected) none

/-- Every request is answered by an expectation that answers no other, or by none; those that answer
none are left. -/
def UsesOnce (requests : List Request) (mock : Mock) : Prop :=
  ∃ met : List (Option Expectation), List.Forall₂ AnsweredBy (exchanges requests mock) met ∧
    (met.reduceOption ++ (engine.sendAll requests mock).2.expectations).Perm mock.expectations

section Meets

variable {mock mock' : Mock} {request : Request} {answer : Except Failure Response}
  {key : MatchKey}

/-- A request leaves the expectations with other keys alone. -/
theorem Meets.withKey_other (meets : Meets mock request answer mock')
    (other : request.matchKey? ≠ some key) :
    Expectation.withKey key mock'.expectations = Expectation.withKey key mock.expectations := by
  cases meets with
  | asked r => rfl
  | unexpected keyed nothing => rfl
  | @expected _ before after e _ here first fits answers =>
    have misses : e.matchKey ≠ key := by
      rintro rfl
      exact other fits
    simp [here, Expectation.withKey, misses]

/-- A request takes the first expectation with its key, if there is one. -/
theorem Meets.withKey_same (meets : Meets mock request answer mock')
    (keyed : request.matchKey? = some key) :
    (∃ e, Expectation.withKey key mock.expectations =
        e :: Expectation.withKey key mock'.expectations ∧
      e.answer? request = some answer ∧ mock'.unexpected = mock.unexpected) ∨
    Expectation.withKey key mock.expectations = [] ∧
      Expectation.withKey key mock'.expectations = [] ∧ answer = .error key.unexpected ∧
      mock'.unexpected = mock.unexpected ++ [key.describe] := by
  cases meets with
  | asked r => cases keyed
  | @expected _ before after e _ here first fits answers =>
    have same : e.matchKey = key := Option.some.inj (fits.symm.trans keyed)
    have skipped : before.filter (fun e => e.matchKey = key) = [] := by
      rw [List.filter_eq_nil_iff]
      intro other member
      have misses := first other member
      rw [keyed] at misses
      simpa [eq_comm] using misses
    exact .inl ⟨e, by simp [here, Expectation.withKey, skipped, same], answers, rfl⟩
  | @unexpected _ key' keyed' nothing =>
    obtain rfl : key' = key := Option.some.inj (keyed'.symm.trans keyed)
    have none : Expectation.withKey key' mock.expectations = [] := by
      rw [Expectation.withKey, List.filter_eq_nil_iff]
      intro e member
      simpa using nothing e member
    exact .inr ⟨none, none, rfl, rfl⟩

theorem exchanges_cons (request : Request) (rest : List Request) (mock : Mock) :
    exchanges (request :: rest) mock =
      (request, (engine.send request mock).1) :: exchanges rest (engine.send request mock).2 := by
  unfold exchanges
  rw [Engine.sendAll_cons, List.zip_cons_cons]

theorem exchangesWith_cons (key : MatchKey) (request : Request) (rest : List Request)
    (mock : Mock) :
    exchangesWith key (request :: rest) mock =
      if request.matchKey? = some key then
        (request, (engine.send request mock).1) ::
          exchangesWith key rest (engine.send request mock).2
      else exchangesWith key rest (engine.send request mock).2 := by
  unfold exchangesWith
  rw [exchanges_cons, List.filter_cons]
  simp only [decide_eq_true_eq]

/-- The requests with a key are answered by the expectations with this key, one by one. -/
theorem exchangesWith_eq (key : MatchKey) (requests : List Request) (mock : Mock) :
    exchangesWith key requests mock =
      inTurn key (Expectation.withKey key mock.expectations) (Request.withKey key requests) := by
  induction requests generalizing mock with
  | nil => simp [exchangesWith, exchanges, Request.withKey, inTurn]
  | cons request rest ih =>
    have meets := meets_send request mock
    rw [exchangesWith_cons, Request.withKey_cons, ih]
    by_cases keyed : request.matchKey? = some key
    · rw [if_pos keyed, if_pos keyed]
      rcases meets.withKey_same keyed with ⟨e, here, answers, -⟩ | ⟨none, none', answer, -⟩
      · rw [here, inTurn, answers, Option.getD_some]
      · rw [none, none', inTurn, answer]
    · rw [if_neg keyed, if_neg keyed, meets.withKey_other keyed]

/-- Of the expectations with a key as many are gone as there were requests with it. -/
theorem withKey_sendAll (key : MatchKey) (requests : List Request) (mock : Mock) :
    Expectation.withKey key (engine.sendAll requests mock).2.expectations =
      (Expectation.withKey key mock.expectations).drop (Request.withKey key requests).length := by
  induction requests generalizing mock with
  | nil => rfl
  | cons request rest ih =>
    have meets := meets_send request mock
    rw [Engine.sendAll_cons, ih, Request.withKey_cons]
    by_cases keyed : request.matchKey? = some key
    · rw [if_pos keyed, List.length_cons]
      rcases meets.withKey_same keyed with ⟨e, here, -, -⟩ | ⟨none, none', -, -⟩
      · rw [here, List.drop_succ_cons]
      · rw [none, none', List.drop_nil, List.drop_nil]
    · rw [if_neg keyed, meets.withKey_other keyed]

/-- A request is expected if it has no key, or if an expectation with its key is left. -/
theorem Meets.unexpected_eq_nil (meets : Meets mock request answer mock') :
    mock'.unexpected = [] ↔ mock.unexpected = [] ∧
      ∀ key, request.matchKey? = some key → Expectation.withKey key mock.expectations ≠ [] := by
  cases keyed : request.matchKey? with
  | none =>
    cases meets with
    | asked r => simp
    | expected here first fits answers => simp [keyed] at fits
    | unexpected keyed' nothing => simp [keyed] at keyed'
  | some key =>
    rcases meets.withKey_same keyed with ⟨e, here, -, same⟩ | ⟨none, -, -, more⟩
    · simp [here, same]
    · simp [none, more]

/-- Nothing is unexpected exactly if for every key there are expectations enough. -/
theorem unexpected_sendAll (requests : List Request) (mock : Mock) :
    (engine.sendAll requests mock).2.unexpected = [] ↔
      mock.unexpected = [] ∧ ∀ key, (Request.withKey key requests).length ≤
        (Expectation.withKey key mock.expectations).length := by
  induction requests generalizing mock with
  | nil => simp [Engine.sendAll, Request.withKey]
  | cons request rest ih =>
    have meets := meets_send request mock
    rw [Engine.sendAll_cons, ih, meets.unexpected_eq_nil, and_assoc, ← forall_and]
    refine and_congr_right fun _ => forall_congr' fun key => ?_
    rw [Request.withKey_cons]
    by_cases keyed : request.matchKey? = some key
    · rw [if_pos keyed, List.length_cons]
      rcases meets.withKey_same keyed with ⟨e, here, -, -⟩ | ⟨none, none', -, -⟩
      · simp [here]
      · simp [none, keyed]
    · rw [if_neg keyed, meets.withKey_other keyed]
      simp [keyed]

/-- An answer comes from the expectation that is gone after the request, or from none. -/
theorem Meets.answeredBy (meets : Meets mock request answer mock') :
    ∃ met : Option Expectation, AnsweredBy (request, answer) met ∧
      (met.toList ++ mock'.expectations).Perm mock.expectations := by
  cases meets with
  | asked r => exact ⟨none, .nobody rfl, .refl _⟩
  | @expected _ before after e _ here first fits answers =>
    refine ⟨some e, .expectation fits answers, ?_⟩
    rw [here]
    show (e :: (before ++ after)).Perm (before ++ e :: after)
    exact List.perm_middle.symm
  | unexpected keyed nothing => exact ⟨none, .unexpected keyed, .refl _⟩

/-- No expectation is used twice. -/
theorem usesOnce_sendAll (requests : List Request) (mock : Mock) : UsesOnce requests mock := by
  induction requests generalizing mock with
  | nil => exact ⟨[], .nil, .refl _⟩
  | cons request rest ih =>
    obtain ⟨met, here, taken⟩ := (meets_send request mock).answeredBy
    obtain ⟨later, from', left⟩ := ih (engine.send request mock).2
    refine ⟨met :: later, ?_, ?_⟩
    · rw [exchanges_cons]
      exact .cons here from'
    · have parts : (met :: later).reduceOption = met.toList ++ later.reduceOption := by
        cases met <;> rfl
      rw [parts, List.append_assoc, Engine.sendAll_cons]
      exact (left.append_left met.toList).trans taken

end Meets

/-- A list of expectations is empty if it has none for any key. -/
theorem eq_nil_iff_withKey (expectations : List Expectation) :
    expectations = [] ↔ ∀ key, Expectation.withKey key expectations = [] := by
  constructor
  · rintro rfl key
    rfl
  · intro none
    cases expectations with
    | nil => rfl
    | cons e rest =>
      have here := none e.matchKey
      simp [Expectation.withKey] at here

theorem verify_eq_ok (mock : Mock) :
    mock.verify = .ok () ↔ mock.unexpected = [] ∧ mock.expectations = [] := by
  unfold verify
  cases mock.unexpected <;> cases mock.expectations <;> simp

/-- The test passes exactly if for every key as many requests arrive as are expected. -/
theorem verify_sendAll (requests : List Request) (mock : Mock) (fresh : mock.unexpected = []) :
    (engine.sendAll requests mock).2.verify = .ok () ↔
      ∀ key, (Request.withKey key requests).length =
        (Expectation.withKey key mock.expectations).length := by
  rw [verify_eq_ok, unexpected_sendAll, eq_nil_iff_withKey, and_assoc, ← forall_and]
  simp only [fresh, true_and, withKey_sendAll, List.drop_eq_nil_iff]
  exact forall_congr' fun key => Nat.le_antisymm_iff.symm

/-- Of the same requests in two orders in which requests with the same key follow each other in the
same way, each gets the same answer; questions about features may be asked at any time. In each
order an expectation answers once at most, and a test accepts both orders or none: both if for every
key as many requests arrive as were expected. -/
theorem arrival_order_unobserved (features : List String) (expected : List Expectation)
    (first second : List Request)
    (sameOrders : ∀ key, Request.withKey key first = Request.withKey key second) :
    let mock : Mock := { features, expectations := expected }
    (∀ key, exchangesWith key first mock = exchangesWith key second mock) ∧
      UsesOnce first mock ∧ UsesOnce second mock ∧
      ((engine.sendAll first mock).2.verify = .ok () ↔
        (engine.sendAll second mock).2.verify = .ok ()) ∧
      ((engine.sendAll first mock).2.verify = .ok () ↔
        ∀ key, (Request.withKey key first).length =
          (Expectation.withKey key expected).length) := by
  intro mock
  refine ⟨fun key => ?_, usesOnce_sendAll first mock, usesOnce_sendAll second mock, ?_,
    verify_sendAll first mock rfl⟩
  · rw [exchangesWith_eq, exchangesWith_eq, sameOrders]
  · rw [verify_sendAll first mock rfl, verify_sendAll second mock rfl]
    simp only [sameOrders]

/-- Two calls of one token around a read: the read may also come last. -/
theorem arrival_order_unobserved_calls :
    let call (argument : String) : Request :=
      .call { token := "pkg:index:size", args := [(argument, .null)] }
    let read : Request := .read { type := "pkg:index:Network", name := "net" }
    let expected : List Expectation :=
      [.call "pkg:index:size" fun _ => .ok {},
        .read "pkg:index:Network" "net" fun _ => .ok {},
        .call "pkg:index:size" fun _ => .error .monitorClosed]
    let mock : Mock := { expectations := expected }
    let first := [call "a", read, call "b"]
    let second := [call "a", .feature {}, call "b", read]
    (∀ key, Request.withKey key first = Request.withKey key second) ∧
      exchangesWith (.call "pkg:index:size") second mock =
        [(call "a", .ok (.call {})), (call "b", .error .monitorClosed)] ∧
      (engine.sendAll second mock).2.verify = .ok () := by
  intro call read expected mock first second
  have sameOrders (key : MatchKey) :
      Request.withKey key first = Request.withKey key second := by
    cases key <;> simp [Request.withKey_cons, Request.matchKey?, first, second, call, read]
  obtain ⟨same, -, -, accepts, -⟩ :=
    arrival_order_unobserved Feature.defaults expected first second sameOrders
  exact ⟨sameOrders, (same _).symm, accepts.mp rfl⟩

end Mock

end Provision
