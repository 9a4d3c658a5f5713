import KeyRegistry.Abi.Interface
import KeyRegistry.Proofs.Abi.Reencoding

/-!
# Calls of declared functions

Where an interface has one function of a name, a call of that name is encoded
under the parameters of this function, and its result is decoded under the
function's outputs.
-/

namespace KeyRegistry
namespace Abi

theorem paramTypes_of_parse {params : List Param} {types : List ParamType}
    (h : params.map (fun param => ParamType.parse param.type) = types.map .ok) :
    paramTypes params = .ok types := by
  induction params generalizing types with
  | nil =>
      cases types with
      | nil => rfl
      | cons type types => cases h
  | cons param params ih =>
      cases types with
      | nil => cases h
      | cons type types =>
          rw [List.map_cons, List.map_cons, List.cons.injEq] at h
          rw [paramTypes, bind_of_ok h.1, bind_of_ok (ih h.2)]
          rfl

theorem length_selector (f : Function) : f.selector.length = 4 := by
  rw [Function.selector, selector, List.length_take, Hash.length_eq]
  rfl

theorem encodeArguments_succeeds_iff {function : String} {params : List Param}
    {args : List Token} :
    (∃ data, encodeArguments function params args = .ok data) ↔
      ∃ types, paramTypes params = .ok types ∧ List.Forall₂ Holds types args := by
  constructor
  · rintro ⟨data, h⟩
    rcases ok_of_bind h with ⟨types, htypes, hencode⟩
    by_cases hlength : types.length = args.length
    · rw [if_neg (not_not_intro hlength)] at hencode
      exact ⟨types, htypes, (encode_succeeds_iff hlength).mp ⟨data, hencode⟩⟩
    · rw [if_pos hlength] at hencode
      cases hencode
  · rintro ⟨types, htypes, hholds⟩
    have hlength := hholds.length_eq
    rcases (encode_succeeds_iff hlength).mpr hholds with ⟨data, hencode⟩
    refine ⟨data, ?_⟩
    rw [encodeArguments, bind_of_ok htypes, if_neg (not_not_intro hlength)]
    exact hencode

namespace Interface

/-- A call can be encoded where a function is found, its parameters are supported, and the arguments
are values of their types. -/
theorem encodeCall_succeeds_iff {interface : Interface} {name : String} {args : List Token} :
    (∃ data, interface.encodeCall name args = .ok data) ↔
      ∃ f types, interface.resolve name args.length = .ok f ∧
        paramTypes f.inputs = .ok types ∧ List.Forall₂ Holds types args := by
  constructor
  · rintro ⟨data, h⟩
    rcases ok_of_bind h with ⟨f, hresolve, hinput⟩
    rcases ok_of_bind hinput with ⟨encoded, hencoded, _⟩
    rcases encodeArguments_succeeds_iff.mp ⟨encoded, hencoded⟩ with ⟨types, htypes, hholds⟩
    exact ⟨f, types, hresolve, htypes, hholds⟩
  · rintro ⟨f, types, hresolve, htypes, hholds⟩
    rcases encodeArguments_succeeds_iff.mpr ⟨types, htypes, hholds⟩ with ⟨encoded, hencoded⟩
    refine ⟨f.selector ++ encoded, ?_⟩
    rw [encodeCall, bind_of_ok hresolve, Function.encodeInput, bind_of_ok hencoded]
    rfl

theorem encodeCall_address_fails {interface : Interface} {name : String} {a : Address}
    {cause : Error} (h : interface.encodeCall name [.address a] = .error cause) (b : Address) :
    ∃ cause, interface.encodeCall name [.address b] = .error cause := by
  cases hencoded : interface.encodeCall name [.address b] with
  | error cause => exact ⟨cause, rfl⟩
  | ok data =>
      rcases encodeCall_succeeds_iff.mp ⟨data, hencoded⟩ with ⟨f, types, hresolve, htypes, hholds⟩
      have hother : List.Forall₂ Holds types [.address a] := by
        cases hholds with
        | cons hfirst hrest =>
            cases hfirst
            exact List.Forall₂.cons (Holds.address a) hrest
      have hsucceeds : ∃ data, interface.encodeCall name [.address a] = .ok data :=
        encodeCall_succeeds_iff.mpr ⟨f, types, hresolve, htypes, hother⟩
      rcases hsucceeds with ⟨data, hdata⟩
      cases h.symm.trans hdata

/-- `f` is the only function called `name`, and has parameters of the given types. -/
structure Declares (interface : Interface) (name : String) (inputs : List String)
    (f : Function) : Prop where
  filter_eq : interface.functions.filter (fun g => g.name = name) = [f]
  inputs_eq : f.inputs.map Param.type = inputs

variable {interface : Interface} {name : String} {inputs : List String} {f : Function}

theorem function_eq_ok_iff {arity : Option Nat} :
    interface.function name arity = .ok f ↔
      (interface.functions.find? fun g =>
        g.name = name && arity.all fun n => g.inputs.length = n) = some f := by
  unfold function
  cases interface.functions.find? fun g =>
      g.name = name && arity.all fun n => g.inputs.length = n with
  | none => exact ⟨nofun, nofun⟩
  | some g =>
      constructor
      · intro h
        cases h
        rfl
      · intro h
        cases h
        rfl

theorem Declares.function_eq (h : interface.Declares name inputs f) {arity : Option Nat}
    (harity : forall n, arity = some n -> inputs.length = n) :
    interface.function name arity = .ok f := by
  have hlength : f.inputs.length = inputs.length := by
    rw [← h.inputs_eq, List.length_map]
  have hall : (arity.all fun n => f.inputs.length = n) = true := by
    cases arity with
    | none => rfl
    | some n => simp [hlength, harity n rfl]
  have hnamed : (interface.functions.filter fun g => g.name = name).find?
      (fun g => arity.all fun n => g.inputs.length = n) = some f := by
    rw [h.filter_eq]
    exact List.find?_cons_of_pos hall
  have hfound : interface.functions.find?
      (fun g => g.name = name && arity.all fun n => g.inputs.length = n) = some f := by
    simpa [List.find?_filter] using hnamed
  rw [function, hfound]

theorem Declares.paramTypes_eq (h : interface.Declares name inputs f) {types : List ParamType}
    (htypes : inputs.map ParamType.parse = types.map .ok) :
    paramTypes f.inputs = .ok types := by
  refine paramTypes_of_parse ?_
  rw [← htypes, ← h.inputs_eq, List.map_map]
  rfl

theorem Declares.encodeCall_eq (h : interface.Declares name inputs f) {types : List ParamType}
    {args : List Token} {data : Bytes} (htypes : inputs.map ParamType.parse = types.map .ok)
    (hlength : types.length = args.length) (hencode : encode types args = .ok data) :
    interface.encodeCall name args = .ok (f.selector ++ data) := by
  have harity : inputs.length = args.length := by
    have hsame := congrArg List.length htypes
    rw [List.length_map, List.length_map] at hsame
    exact hsame.trans hlength
  have hresolve : interface.resolve name args.length = .ok f := by
    rw [resolve, h.function_eq fun n hn => harity.trans (Option.some.inj hn)]
  have hargs : encodeArguments f.name f.inputs args = .ok data := by
    rw [encodeArguments, bind_of_ok (h.paramTypes_eq htypes), if_neg (not_not_intro hlength)]
    exact hencode
  rw [encodeCall, bind_of_ok hresolve, Function.encodeInput, bind_of_ok hargs]
  rfl

theorem Declares.decodeOutput_eq (h : interface.Declares name inputs f)
    {types : List ParamType} {outputs : List String}
    (houtputs : f.outputs.map Param.type = outputs)
    (htypes : outputs.map ParamType.parse = types.map .ok) (data : Bytes) :
    interface.decodeOutput name data = decode types data := by
  have hparams : paramTypes f.outputs = .ok types := by
    refine paramTypes_of_parse ?_
    rw [← htypes, ← houtputs, List.map_map]
    rfl
  have hfunction : interface.function name none = .ok f :=
    h.function_eq fun n hn => absurd hn nofun
  rw [decodeOutput, bind_of_ok hfunction, Function.decodeOutput, bind_of_ok hparams]

end Interface
end Abi
end KeyRegistry
