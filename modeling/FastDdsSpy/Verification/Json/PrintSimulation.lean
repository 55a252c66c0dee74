import FastDdsSpy.Model.JsonFormat
import FastDdsSpy.Verification.Json.Simulation

/-! # Simulation of a printer

A printer that writes the same primitives, in a representation of its own, writes the same
text. -/

namespace FastDdsSpy.Json

variable {μ ν : Type*} {ρ σ χ ψ : Type}

theorem mapM_primitive?_map (f : μ → ν) (g : ρ → σ) (values : List (Json μ ρ)) :
    (values.map (Json.map f g)).mapM primitive? =
      (values.mapM primitive?).map fun primitives => primitives.map (Primitive.map f g) := by
  induction values with
  | nil => rfl
  | cons value rest ih =>
      cases value with
      | primitive value =>
          rw [List.map_cons, List.mapM_cons, List.mapM_cons, ih]
          cases h : rest.mapM primitive? <;> simp [primitive?]
      | array values => simp [primitive?]
      | object members => simp [primitive?]

/-- A text is written piece by piece, and ASCII as it is. -/
structure Encodes [TextUnit χ] [TextUnit ψ] (e : List χ → List ψ) : Prop where
  append (a b : List χ) : e (a ++ b) = e a ++ e b
  ascii (text : Text) (h : ∀ c ∈ text, c.toNat ≤ 0x7F) : e (ascii text) = FastDdsSpy.ascii text

section Print

variable [TextUnit χ] [TextUnit ψ] {m : Type → Type} [Monad m] [LawfulMonad m]
  {dump : Primitive μ ρ → List χ} {dump' : Primitive ν σ → m (List ψ)} {f : μ → ν} {g : ρ → σ}
  {e : List χ → List ψ}

theorem Encodes.spaces (he : Encodes e) (n : ℕ) : e (spaces n) = FastDdsSpy.spaces n := by
  refine he.ascii _ fun c hc => ?_
  rw [List.eq_of_mem_replicate hc]
  decide

theorem Encodes.nil (he : Encodes e) : e [] = [] := he.ascii [] (by simp)

theorem printPrimitives_map (he : Encodes e)
    (hdump : ∀ value, dump' (value.map f g) = pure (e (dump value)))
    (values : List (Primitive μ ρ)) :
    printPrimitives dump' (values.map (Primitive.map f g)) =
      pure (e (printPrimitives (fun value => (pure (dump value) : Id _)) values).run) := by
  induction values with
  | nil => simp [printPrimitives, he.nil]
  | cons value rest ih =>
      simp [printPrimitives, hdump, ih, he.append, he.ascii [',', ' '] (by simp)]

mutual

/-- The second printer writes, in its own units, what the first one writes. -/
theorem print_map (he : Encodes e)
    (hdump : ∀ value, dump' (value.map f g) = pure (e (dump value)))
    (j : Json μ ρ) (indent step : ℕ) :
    print dump' (j.map f g) indent step =
      pure (e (print (fun value => (pure (dump value) : Id _)) j indent step).run) := by
  match j with
  | .primitive value => exact hdump value
  | .array [] =>
      simp only [map_array, List.map_nil, print, List.mapM_nil]
      simp [he.append, he.ascii]
  | .array (value :: rest) =>
      have hprimitives := mapM_primitive?_map f g (value :: rest)
      rw [List.map_cons] at hprimitives
      simp only [map_array, List.map_cons, print, hprimitives]
      cases (value :: rest).mapM primitive? with
      | some primitives =>
          cases primitives with
          | nil => simp [he.append, he.ascii]
          | cons value rest =>
              have hprint := printPrimitives_map he hdump rest
              simp [hdump, hprint, he.append, he.ascii]
      | none =>
          have hvalue := print_map he hdump value (indent + step) step
          have hrest := printElements_map he hdump rest (indent + step) step
          simp [hvalue, hrest, he.append, he.ascii, he.spaces]
  | .object [] =>
      simp [print, he.append, he.ascii, he.spaces]
  | .object ((key, value) :: rest) =>
      have hkey : dump' (.string (g key)) = pure (e (dump (.string key))) := hdump (.string key)
      have hvalue := print_map he hdump value (indent + step) step
      have hrest := printMembers_map he hdump rest (indent + step) step
      simp [print, hkey, hvalue, hrest, he.append, he.ascii, he.spaces]
termination_by structural j

theorem printMembers_map (he : Encodes e)
    (hdump : ∀ value, dump' (value.map f g) = pure (e (dump value)))
    (members : List (ρ × Json μ ρ)) (indent step : ℕ) :
    printMembers dump' (members.map fun m => (g m.1, m.2.map f g)) indent step =
      pure (e
        (printMembers (fun value => (pure (dump value) : Id _)) members indent step).run) := by
  match members with
  | [] => simp [printMembers, he.nil]
  | (key, value) :: rest =>
      have hkey : dump' (.string (g key)) = pure (e (dump (.string key))) := hdump (.string key)
      have hvalue := print_map he hdump value indent step
      have hrest := printMembers_map he hdump rest indent step
      simp [printMembers, hkey, hvalue, hrest, he.append, he.ascii, he.spaces]
termination_by structural members

theorem printElements_map (he : Encodes e)
    (hdump : ∀ value, dump' (value.map f g) = pure (e (dump value)))
    (values : List (Json μ ρ)) (indent step : ℕ) :
    printElements dump' (values.map (Json.map f g)) indent step =
      pure (e
        (printElements (fun value => (pure (dump value) : Id _)) values indent step).run) := by
  match values with
  | [] => simp [printElements, he.nil]
  | value :: rest =>
      have hvalue := print_map he hdump value indent step
      have hrest := printElements_map he hdump rest indent step
      simp [printElements, hvalue, hrest, he.append, he.ascii, he.spaces]
termination_by structural values

end

end Print

end FastDdsSpy.Json
