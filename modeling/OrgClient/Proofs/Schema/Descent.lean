import OrgClient.Proofs.Schema.Path

namespace OrgClient.Schema

open Soql (Clauses FieldRef Query Tracer)
set_option autoImplicit true

namespace Table

/-- A property stands for a child relationship, which leads to a table. -/
def IsChild (t : Table κ) (p : String) (f : Field κ) (target : κ) : Prop :=
  t.IsFirst p f ∧ f.relation = some (.child target)

end Table

namespace Resolver

/-- One step from a resolver to another, to a parent or to the place for which a query on child
records is given its clauses. -/
inductive Step : Resolver κ → Resolver κ → Prop
  | parent (h : r.parent p = .ok r') : Step r r'
  | child (h : r.child p = .ok (name, r')) : Step r r'

/-- A resolver is not that of the queried table. -/
def Inner (r : Resolver κ) : Prop :=
  r.path ≠ [] ∨ r.inSubquery = true

/-- A query on child records fails in every monad, and the callback for its clauses is not used. -/
def RefusesChild (r : Resolver κ) (p : String) : Prop :=
  ∃ reason, ∀ {m : Type → Type} [Monad m] [LawfulMonad m] [Tracer m]
    (build : Resolver κ → ExceptT Soql.Error m Clauses),
    r.subquery p build = throw (.invalidFieldReference r.table.apiName p reason)

/-- The query on the records under a name, with some clauses, as a column. -/
def childColumn (name : String) (clauses : Clauses) : Except Soql.Error FieldRef :=
  (Query.compose ⟨name, clauses⟩).map fun text => .subquery ("(" ++ text ++ ")")

/-- A query on child records is that on a name, with the clauses that the callback gives for a
place, or the error of the callback. -/
def AsksForChild (r : Resolver κ) (p name : String) (place : Resolver κ) : Prop :=
  ∀ {m : Type → Type} [Monad m] [LawfulMonad m] [Tracer m]
    (build : Resolver κ → ExceptT Soql.Error m Clauses),
    (r.subquery p build).run = do
      match ← (build place).run with
      | .error e => pure (.error e)
      | .ok clauses =>
        Tracer.composed (Query.composed ⟨name, clauses⟩)
        return childColumn name clauses

/-- To compose a query is to tell of the queries in it, and then to give its text. -/
theorem run_composeIn {m : Type → Type} [Monad m] [LawfulMonad m] [Tracer m] (q : Query) :
    (q.composeIn : ExceptT Soql.Error m String).run = do
      Tracer.composed q.composed
      return q.compose := by
  rw [Query.composeIn, ExceptT.run_bind, ExceptT.run_lift, map_eq_pure_bind, bind_assoc]
  simp only [pure_bind, ExceptT.run_mk]

theorem inner_iff {r : Resolver κ} : (!r.path.isEmpty || r.inSubquery) = true ↔ r.Inner := by
  simp [Inner]

theorem child_eq_ok_iff {r : Resolver κ} :
    r.child p = .ok (name, place) ↔ ∃ f target, r.table.IsChild p f target ∧ ¬ r.Inner ∧
      name = f.apiName ∧ place = ⟨r.schema, target, [], true⟩ := by
  rw [child, bind_eq_ok_iff]
  constructor
  · rintro ⟨f, hf, h⟩
    split at h
    · rename_i target hr
      split at h
      · cases h
      · rename_i hi
        cases h
        exact ⟨f, target, ⟨lookup_eq_ok_iff.mp hf, hr⟩, mt inner_iff.mpr hi, rfl, rfl⟩
    · cases h
  · rintro ⟨f, target, ⟨hf, hr⟩, hi, rfl, rfl⟩
    refine ⟨f, lookup_eq_ok_iff.mpr hf, ?_⟩
    rw [hr]
    exact if_neg (mt inner_iff.mp hi)

theorem child_error {r : Resolver κ} (h : r.child p = .error e) :
    ∃ reason, e = r.invalid p reason := by
  rw [child, bind_eq_error_iff, lookup_eq_error_iff] at h
  obtain ⟨-, rfl⟩ | ⟨f, -, h⟩ := h
  · exact ⟨_, rfl⟩
  · split at h
    · split at h
      · cases h
        exact ⟨_, rfl⟩
      · cases h
    · cases h
      exact ⟨_, rfl⟩

theorem refusesChild {r : Resolver κ} (h : ∀ name place, r.child p ≠ .ok (name, place)) :
    r.RefusesChild p := by
  cases hc : r.child p with
  | ok child => exact absurd hc (h _ _)
  | error e =>
    obtain ⟨reason, rfl⟩ := child_error hc
    refine ⟨reason, fun build => ?_⟩
    rw [subquery, hc]
    apply ExceptT.ext
    rw [ExceptT.run_bind, ExceptT.run_mk, pure_bind]
    rfl

theorem asksForChild {r : Resolver κ} (h : r.child p = .ok (name, place)) :
    r.AsksForChild p name place := by
  intro m _ _ _ build
  rw [subquery, h, ExceptT.run_bind, ExceptT.run_mk, pure_bind]
  simp only [ExceptT.run_bind]
  -- Both sides run the callback first, and differ only in how they go on from its clauses.
  congr 1
  funext x
  cases x with
  | error e => rfl
  | ok clauses =>
    simp only [run_composeIn, bind_assoc, pure_bind, childColumn]
    cases Query.compose ⟨name, clauses⟩ <;> rfl

/-- After a step, however it came about, a resolver is not that of the queried table. -/
theorem Step.inner {r r' : Resolver κ} (h : Step r r') : r'.Inner := by
  cases h with
  | parent h =>
    obtain ⟨f, target, -, rfl⟩ := parent_eq_ok_iff.mp h
    exact .inl (List.append_ne_nil_of_right_ne_nil _ (List.cons_ne_nil _ _))
  | child h =>
    obtain ⟨f, target, -, -, -, rfl⟩ := child_eq_ok_iff.mp h
    exact .inr rfl

theorem inner_of_steps {schema : Schema κ} {key : κ}
    (h : Relation.TransGen Step (root schema key) r) : r.Inner := by
  cases h with
  | single h => exact h.inner
  | tail _ h => exact h.inner

theorem not_inner_root (schema : Schema κ) (key : κ) : ¬ (root schema key).Inner := by
  rintro (h | h)
  · exact h rfl
  · cases h

/-- Queries on child records are refused one step or more away from the resolver of a table. There
they are refused for properties that stand for no child relationship, and all others are composed
from the clauses that the callback gives for the child's table. -/
theorem child_only_at_root (schema : Schema κ) (key : κ) (p : String) :
    (∀ r, Relation.TransGen Step (root schema key) r → r.RefusesChild p) ∧
    ((∀ f target, ¬ (schema key).IsChild p f target) → (root schema key).RefusesChild p) ∧
    ∀ f target, (schema key).IsChild p f target →
      (root schema key).AsksForChild p f.apiName ⟨schema, target, [], true⟩ := by
  refine ⟨fun r hr => refusesChild fun name place hc => ?_,
    fun hn => refusesChild fun name place hc => ?_, fun f target hf => asksForChild ?_⟩
  · obtain ⟨-, -, -, hi, -⟩ := child_eq_ok_iff.mp hc
    exact hi (inner_of_steps hr)
  · obtain ⟨f, target, hf, -⟩ := child_eq_ok_iff.mp hc
    exact hn f target hf
  · exact child_eq_ok_iff.mpr ⟨f, target, hf, not_inner_root schema key, rfl, rfl⟩

/-- Accounts with contacts, each of which leads back to its account. -/
def accounts : Schema Nat :=
  Schema.ofList [
    ⟨"Account",
      [⟨"contacts", "Contacts", .reference, false, false, false, false, some (.child 1)⟩]⟩,
    ⟨"Contact",
      [⟨"account", "Account", .reference, false, false, false, false, some (.parent 0)⟩]⟩]

example : Id.run ((root accounts 0).subquery "contacts" fun contacts => do
    let account : Resolver Nat ← ExceptT.mk (pure (contacts.parent "account"))
    return Clauses.empty.addFields [← account.subquery "contacts" fun _ => return .empty]).run =
      .error (.invalidFieldReference "Account" "contacts"
        "subqueries are only allowed on the queried entity") := by
  rfl

end Resolver

end OrgClient.Schema
