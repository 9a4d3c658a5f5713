import KeyRegistry.Proofs.StorageContract.Conversation
import KeyRegistry.Proofs.Abi.Interface

/-!
# Overloaded functions

A call is encoded by the first function of its name that takes as many parameters
as there are arguments.  Its result is decoded by the first function of the name,
whatever that one takes.  These are the same function exactly where the first
function of the name is one of the call's arity.
-/

namespace KeyRegistry
namespace Abi
namespace Interface

variable {interface : Interface} {name : String} {f : Function}

def firstOf (interface : Interface) (name : String) : Option Function :=
  interface.functions.find? fun f => f.name = name

theorem function_none_eq_ok_iff :
    interface.function name none = .ok f ↔ interface.firstOf name = some f := by
  simp [function_eq_ok_iff, firstOf]

/-- Where the first function of a name has a given arity, it is the first one of both. -/
theorem function_of_firstOf {arity : Nat} (hfirst : interface.firstOf name = some f)
    (harity : f.inputs.length = arity) : interface.function name (some arity) = .ok f := by
  rw [function_eq_ok_iff, List.find?_eq_some_iff_append]
  rcases List.find?_eq_some_iff_append.mp hfirst with ⟨hname, before, after, hsplit, hbefore⟩
  refine ⟨?_, before, after, hsplit, ?_⟩
  · simpa [harity] using hname
  · intro g hg
    have hother : g.name ≠ name := by simpa using hbefore g hg
    simp [hother]

theorem matches_of_function {arity : Nat} (h : interface.function name (some arity) = .ok f) :
    f.name = name ∧ f.inputs.length = arity := by
  have hfound := List.find?_some (function_eq_ok_iff.mp h)
  simpa using hfound

theorem exists_firstOf_of_function {arity : Nat}
    (h : interface.function name (some arity) = .ok f) :
    ∃ first, interface.firstOf name = some first := by
  have hmem := List.mem_of_find?_eq_some (function_eq_ok_iff.mp h)
  unfold firstOf
  rw [← Option.isSome_iff_exists, List.find?_isSome]
  exact ⟨f, hmem, decide_eq_true (matches_of_function h).1⟩

theorem length_of_paramTypes {params : List Param} {types : List ParamType}
    (h : paramTypes params = .ok types) : types.length = params.length := by
  induction params generalizing types with
  | nil =>
      cases h
      rfl
  | cons param params ih =>
      rcases ok_of_bind h with ⟨type, _, hrest⟩
      rcases ok_of_bind hrest with ⟨rest, hparams, heq⟩
      cases heq
      rw [List.length_cons, List.length_cons, ih hparams]

theorem length_of_encodeInput {args : List Token} {data : Bytes}
    (h : f.encodeInput args = .ok data) : f.inputs.length = args.length := by
  rcases ok_of_bind h with ⟨encoded, harguments, _⟩
  rcases ok_of_bind harguments with ⟨types, htypes, hrest⟩
  rw [← length_of_paramTypes htypes]
  apply Classical.byContradiction
  intro hne
  rw [if_pos hne] at hrest
  cases hrest

/-- The function that an encoded call uses has the arity of the call: one that is found by its
name alone takes another number of arguments and encodes nothing. -/
theorem function_of_encodeCall {args : List Token} {data : Bytes}
    (h : interface.encodeCall name args = .ok data) :
    ∃ f, interface.function name (some args.length) = .ok f ∧ f.encodeInput args = .ok data := by
  rcases ok_of_bind h with ⟨f, hresolve, hencode⟩
  unfold resolve at hresolve
  split at hresolve
  · rename_i g hfound
    cases hresolve
    exact ⟨f, hfound, hencode⟩
  · rename_i e hmissing
    have hfirst := function_none_eq_ok_iff.mp hresolve
    rw [function_of_firstOf hfirst (length_of_encodeInput hencode)] at hmissing
    cases hmissing

theorem decodeOutput_of_firstOf (hfirst : interface.firstOf name = some f) (output : Bytes) :
    interface.decodeOutput name output = f.decodeOutput output := by
  rw [decodeOutput, bind_of_ok (function_none_eq_ok_iff.mpr hfirst)]

end Interface
end Abi

namespace StorageContract

open Program

/-- The result of an encoded call is decoded as that of the first function of the name; and where
this function takes as many parameters as there are arguments, and only there, it is the one that
the call uses. -/
theorem result_decoded_as_called {contract : StorageContract} {method : String}
    {args : List Abi.Token} {data : Bytes}
    (hcall : contract.artifact.interface.encodeCall method args = .ok data) :
    ∃ called first,
      contract.artifact.interface.resolve method args.length = .ok called ∧
      called.encodeInput args = .ok data ∧
      contract.artifact.interface.firstOf method = some first ∧
      (first = called ↔ first.inputs.length = args.length) ∧
      (forall output,
        contract.artifact.interface.decodeOutput method output = first.decodeOutput output) ∧
      forall (caller : Address) {σ : Type} (w : World σ) (s : σ),
        Conforms w s (contract.query caller method args) fun asked result =>
          ∃ answer,
            asked = [⟨.execute (Call.invoke caller contract.address method data), answer⟩] ∧
            result = firstValue contract.artifact.interface method answer := by
  rcases Abi.Interface.function_of_encodeCall hcall with ⟨called, hcalled, hencode⟩
  have hresolve : contract.artifact.interface.resolve method args.length = .ok called := by
    rw [Abi.Interface.resolve, hcalled]
  rcases Abi.Interface.exists_firstOf_of_function hcalled with ⟨first, hfirst⟩
  refine ⟨called, first, hresolve, hencode, hfirst, ?_, ?_, ?_⟩
  · constructor
    · rintro rfl
      exact (Abi.Interface.matches_of_function hcalled).2
    · intro harity
      rw [Abi.Interface.function_of_firstOf hfirst harity] at hcalled
      exact Except.ok.inj hcalled
  · exact Abi.Interface.decodeOutput_of_firstOf hfirst
  · intro caller σ w s
    have hreads := reads_of_query (yields_trace w (contract.query caller method args) s)
    rw [hcall] at hreads
    exact hreads

/-- The key of an identifier, or of all of them together. -/
def keyOf : Abi.Function :=
  { name := "retrieveKey", inputs := [{ name := "id", type := "string" }],
    outputs := [{ name := "", type := "string" }], readOnly := true }

/-- The number of the keys that are stored. -/
def keyCount : Abi.Function :=
  { name := "retrieveKey", inputs := [], outputs := [{ name := "", type := "uint256" }],
    readOnly := true }

/-- A deployed contract whose interface has two functions of one name. -/
def overloaded (functions : List Abi.Function) : StorageContract where
  artifact := {
    key := artifactKey, interface := { functions, constructorInputs := [] },
    payload := [0x60, 0x80] }
  address := Address.repeated 0xcc
  config := Pipeline.Config.default

theorem result_decoded_as_called_first :
    let contract := overloaded [keyOf, keyCount]
    (∃ data, contract.artifact.interface.encodeCall "retrieveKey" [.text "id"] = .ok data) ∧
      contract.artifact.interface.resolve "retrieveKey" 1 = .ok keyOf ∧
      forall output,
        contract.artifact.interface.decodeOutput "retrieveKey" output =
          keyOf.decodeOutput output := by
  intro contract
  have hcall : ∃ data,
      contract.artifact.interface.encodeCall "retrieveKey" [.text "id"] = .ok data := ⟨_, rfl⟩
  rcases hcall with ⟨data, hdata⟩
  rcases result_decoded_as_called hdata with
    ⟨called, first, hresolve, _, hfirst, hsame, hdecode, _⟩
  cases hfirst
  have heq : keyOf = called := hsame.mpr rfl
  rw [← heq] at hresolve
  exact ⟨⟨data, hdata⟩, hresolve, hdecode⟩

/-- Where the function that takes no arguments comes first, the key that the other one returns is
read as a number. -/
theorem result_decoded_as_another :
    let contract := overloaded [keyCount, keyOf]
    (∃ data, contract.artifact.interface.encodeCall "retrieveKey" [.text "id"] = .ok data ∧
      keyOf.encodeInput [.text "id"] = .ok data) ∧
      contract.artifact.interface.resolve "retrieveKey" 1 = .ok keyOf ∧
      ∃ output, Abi.encode [.text] [.text "key"] = .ok output ∧
        keyOf.decodeOutput output = .ok [.text "key"] ∧
        contract.artifact.interface.decodeOutput "retrieveKey" output = .ok [.uint 32] := by
  intro contract
  have hencode : ∃ output, Abi.encode [.text] [.text "key"] = .ok output ∧
      output.length < UInt64.size ∧
      contract.artifact.interface.decodeOutput "retrieveKey" output = .ok [.uint 32] :=
    ⟨_, rfl, by decide +kernel, rfl⟩
  rcases hencode with ⟨output, houtput, hsize, hread⟩
  exact ⟨⟨_, rfl, rfl⟩, rfl, output, houtput, Abi.decode_of_encode rfl houtput hsize, hread⟩

end StorageContract
end KeyRegistry
