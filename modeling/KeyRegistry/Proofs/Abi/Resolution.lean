import KeyRegistry.Proofs.Abi.HeadTail
import KeyRegistry.Proofs.Abi.Interface

/-!
# Resolution of calls

A call names a function and gives arguments.  Among the functions of the name, the
first one that takes as many arguments is used, or else the first one of all.  The
call is then refused for the first parameter of the function whose type is not
supported, for the number of the arguments, or for the first argument that is not a
value of its type, in this order; where none of them applies, it is encoded.  The
arguments of the constructor are taken in the same way, without a selector.
-/

namespace KeyRegistry
namespace Abi

/-! ## First elements -/

/-- `x` is the first element of a list that has a property. -/
def First {α : Type} (p : α -> Prop) (xs : List α) (x : α) : Prop :=
  ∃ before after, xs = before ++ x :: after ∧ p x ∧ forall y, y ∈ before -> ¬ p y

section

variable {α : Type} {p : α -> Prop} {x : α} {xs : List α}

theorem first_cons_iff {y : α} :
    First p (y :: xs) x ↔ (x = y ∧ p y) ∨ (¬ p y ∧ First p xs x) := by
  constructor
  · rintro ⟨before, after, heq, hx, hbefore⟩
    cases before with
    | nil =>
        cases heq
        exact .inl ⟨rfl, hx⟩
    | cons z before =>
        cases heq
        rcases List.forall_mem_cons.mp hbefore with ⟨hy, hrest⟩
        exact .inr ⟨hy, before, after, rfl, hx, hrest⟩
  · rintro (⟨rfl, hx⟩ | ⟨hy, before, after, rfl, hx, hbefore⟩)
    · exact ⟨[], xs, rfl, hx, nofun⟩
    · exact ⟨y :: before, after, rfl, hx, List.forall_mem_cons.mpr ⟨hy, hbefore⟩⟩

theorem First.mem (h : First p xs x) : x ∈ xs ∧ p x := by
  rcases h with ⟨before, after, rfl, hx, _⟩
  exact ⟨List.mem_append_right before List.mem_cons_self, hx⟩

theorem exists_first_iff : (∃ x, First p xs x) ↔ ∃ x, x ∈ xs ∧ p x := by
  constructor
  · rintro ⟨x, h⟩
    exact ⟨x, h.mem⟩
  · rintro ⟨x, hmem, hx⟩
    induction xs with
    | nil => cases hmem
    | cons y xs ih =>
        by_cases hy : p y
        · exact ⟨y, first_cons_iff.mpr (.inl ⟨rfl, hy⟩)⟩
        · have hrest : x ∈ xs := by
            cases hmem with
            | head => exact absurd hx hy
            | tail _ hrest => exact hrest
          rcases ih hrest with ⟨z, hz⟩
          exact ⟨z, first_cons_iff.mpr (.inr ⟨hy, hz⟩)⟩

theorem find?_eq_some_iff_first [DecidablePred p] :
    xs.find? (fun y => p y) = some x ↔ First p xs x := by
  simp only [List.find?_eq_some_iff_append, First, decide_eq_true_eq, Bool.not_eq_true',
    decide_eq_false_iff_not]
  constructor
  · rintro ⟨hx, before, after, heq, hbefore⟩
    exact ⟨before, after, heq, hx, hbefore⟩
  · rintro ⟨before, after, heq, hx, hbefore⟩
    exact ⟨hx, before, after, heq, hbefore⟩

end

/-! ## Parameters -/

variable {params : List Param} {types : List ParamType} {cause : Error}

def Supported (params : List Param) (types : List ParamType) : Prop :=
  params.map (fun param => ParamType.parse param.type) = types.map .ok

/-- The first parameter whose type is not supported names the type `name`. -/
def FirstUnsupported (params : List Param) (name : String) : Prop :=
  ∃ param, param.type = name ∧
    First (fun p => forall type, ParamType.parse p.type ≠ .ok type) params param

theorem Supported.length_eq (h : Supported params types) : types.length = params.length := by
  have hlength := congrArg List.length h
  rw [List.length_map, List.length_map] at hlength
  exact hlength.symm

theorem paramTypes_eq_ok_iff : paramTypes params = .ok types ↔ Supported params types := by
  constructor
  · intro h
    induction params generalizing types with
    | nil =>
        cases h
        rfl
    | cons param params ih =>
        rcases ok_of_bind h with ⟨type, hparse, hrest⟩
        rcases ok_of_bind hrest with ⟨types, htypes, heq⟩
        cases heq
        rw [Supported, List.map_cons, List.map_cons, hparse, ih htypes]
  · exact paramTypes_of_parse

theorem parse_eq_error_iff {name : String} :
    ParamType.parse name = .error cause ↔
      cause = .unsupportedType name ∧ forall type, ParamType.parse name ≠ .ok type := by
  refine eq_error_iff_of_only fun e h => ?_
  unfold ParamType.parse at h
  repeat' split at h
  all_goals cases h
  rfl

theorem firstUnsupported_cons_iff {param : Param} {name : String} :
    FirstUnsupported (param :: params) name ↔
      (param.type = name ∧ forall type, ParamType.parse param.type ≠ .ok type) ∨
        (∃ type, ParamType.parse param.type = .ok type) ∧ FirstUnsupported params name := by
  constructor
  · rintro ⟨first, hname, hfirst⟩
    rcases first_cons_iff.mp hfirst with ⟨rfl, hunsupported⟩ | ⟨hsupported, hrest⟩
    · exact .inl ⟨hname, hunsupported⟩
    · exact .inr ⟨not_forall_not.mp hsupported, first, hname, hrest⟩
  · rintro (⟨hname, hunsupported⟩ | ⟨hsupported, first, hname, hrest⟩)
    · exact ⟨param, hname, first_cons_iff.mpr (.inl ⟨rfl, hunsupported⟩)⟩
    · exact ⟨first, hname, first_cons_iff.mpr (.inr ⟨not_forall_not.mpr hsupported, hrest⟩)⟩

theorem paramTypes_eq_error_iff :
    paramTypes params = .error cause ↔
      ∃ name, cause = .unsupportedType name ∧ FirstUnsupported params name := by
  induction params with
  | nil =>
      constructor
      · nofun
      · rintro ⟨_, _, _, _, before, after, heq, _⟩
        cases before with
        | nil => cases heq
        | cons => cases heq
  | cons param params ih =>
      rw [paramTypes, error_of_parts_iff fun _ => ih, parse_eq_error_iff]
      simp only [firstUnsupported_cons_iff]
      constructor
      · rintro (⟨heq, hunsupported⟩ | ⟨hsupported, name, heq, hfirst⟩)
        · exact ⟨param.type, heq, .inl ⟨rfl, hunsupported⟩⟩
        · exact ⟨name, heq, .inr ⟨hsupported, hfirst⟩⟩
      · rintro ⟨name, heq, ⟨rfl, hunsupported⟩ | ⟨hsupported, hfirst⟩⟩
        · exact .inl ⟨heq, hunsupported⟩
        · exact .inr ⟨hsupported, name, heq, hfirst⟩

/-! ## Arguments -/

variable {function : String} {args : List Token} {data : Bytes}

inductive Refused (function : String) (params : List Param) (args : List Token) : Error -> Prop where
  | unsupportedType {name : String} :
      FirstUnsupported params name -> Refused function params args (.unsupportedType name)
  | argumentCount {types : List ParamType} :
      Supported params types -> params.length ≠ args.length ->
      Refused function params args (.argumentCount function params.length args.length)
  | misfit {types : List ParamType} {cause : Error} :
      Supported params types -> params.length = args.length -> FirstMisfit types args cause ->
      Refused function params args cause

/-- The arguments are values of the types that the parameters name, and `data` is their encoding;
it is decoded to them where 64 bits hold its length. -/
def Carries (params : List Param) (args : List Token) (data : Bytes) : Prop :=
  ∃ types, Supported params types ∧ List.Forall₂ Holds types args ∧
    encode types args = .ok data ∧
    (data.length < UInt64.size -> decode types data = .ok args)

theorem encodeArguments_of_supported (hsupported : Supported params types)
    (hlength : params.length = args.length) :
    encodeArguments function params args = encode types args := by
  rw [encodeArguments, bind_of_ok (paramTypes_eq_ok_iff.mpr hsupported), hsupported.length_eq,
    if_neg (not_not_intro hlength)]

theorem encodeArguments_of_count (hsupported : Supported params types)
    (hcount : params.length ≠ args.length) :
    encodeArguments function params args =
      .error (.argumentCount function params.length args.length) := by
  rw [encodeArguments, bind_of_ok (paramTypes_eq_ok_iff.mpr hsupported), hsupported.length_eq,
    if_pos hcount]
  rfl

theorem encodeArguments_eq_error_iff :
    encodeArguments function params args = .error cause ↔ Refused function params args cause := by
  constructor
  · intro h
    cases htypes : paramTypes params with
    | error e =>
        have herror : encodeArguments function params args = .error e := bind_of_error htypes _
        cases h.symm.trans herror
        rcases paramTypes_eq_error_iff.mp htypes with ⟨name, rfl, hfirst⟩
        exact Refused.unsupportedType hfirst
    | ok types =>
        have hsupported := paramTypes_eq_ok_iff.mp htypes
        by_cases hlength : params.length = args.length
        · rw [encodeArguments_of_supported hsupported hlength,
            encode_eq_error_iff (hsupported.length_eq.trans hlength)] at h
          exact Refused.misfit hsupported hlength h
        · rw [encodeArguments_of_count hsupported hlength] at h
          cases h
          exact Refused.argumentCount hsupported hlength
  · intro h
    cases h with
    | unsupportedType hfirst =>
        exact bind_of_error (paramTypes_eq_error_iff.mpr ⟨_, rfl, hfirst⟩) _
    | argumentCount hsupported hcount => exact encodeArguments_of_count hsupported hcount
    | misfit hsupported hlength hmisfit =>
        rw [encodeArguments_of_supported hsupported hlength]
        exact (encode_eq_error_iff (hsupported.length_eq.trans hlength)).mpr hmisfit

theorem encodeArguments_eq_ok_iff :
    encodeArguments function params args = .ok data ↔ Carries params args data := by
  constructor
  · intro h
    rcases encodeArguments_succeeds_iff.mp ⟨data, h⟩ with ⟨types, htypes, hholds⟩
    have hsupported := paramTypes_eq_ok_iff.mp htypes
    have hlength := hholds.length_eq
    rw [encodeArguments_of_supported hsupported (hsupported.length_eq.symm.trans hlength)] at h
    exact ⟨types, hsupported, hholds, h, decode_of_encode hlength h⟩
  · rintro ⟨types, hsupported, hholds, hencode, _⟩
    have hlength := hsupported.length_eq.symm.trans hholds.length_eq
    rw [encodeArguments_of_supported hsupported hlength]
    exact hencode

theorem encodeInput_eq_error_iff {f : Function} :
    f.encodeInput args = .error cause ↔ Refused f.name f.inputs args cause := by
  rw [← encodeArguments_eq_error_iff]
  constructor
  · intro h
    rcases error_of_bind h with hfails | ⟨data, _, hpure⟩
    · exact hfails
    · cases hpure
  · intro h
    exact bind_of_error h _

theorem encodeInput_eq_ok_iff {f : Function} :
    f.encodeInput args = .ok data ↔
      data.take 4 = (Hash.keccak (Text.encode f.signature)).bytes.take 4 ∧
        Carries f.inputs args (data.drop 4) := by
  have hselector : (Hash.keccak (Text.encode f.signature)).bytes.take 4 = f.selector := rfl
  have harguments := @encodeArguments_eq_ok_iff f.inputs f.name args (data.drop 4)
  rw [hselector, ← harguments]
  constructor
  · intro h
    rcases ok_of_bind h with ⟨encoded, hencoded, heq⟩
    cases heq
    rw [List.take_left' (length_selector f), List.drop_left' (length_selector f)]
    exact ⟨rfl, hencoded⟩
  · rintro ⟨htake, hdrop⟩
    rw [Function.encodeInput, bind_of_ok hdrop, ← htake]
    exact congrArg Except.ok (List.take_append_drop 4 data)

/-! ## Entries -/

/-- Whether an entry of a description is one of a function. -/
def Entry.isFunction (e : Entry) : Bool :=
  e.kind.getD "function" = "function"

def Entry.toFunction (e : Entry) : Function :=
  { name := e.name.getD "", inputs := e.inputs.getD [], outputs := e.outputs.getD [],
    readOnly := e.isReadOnly }

/-- The inputs of the last constructor among entries, or `otherwise` where there is none. -/
inductive LastConstructor (otherwise : List Param) (es : List Entry) : List Param -> Prop where
  | found {before after : List Entry} {e : Entry} :
      es = before ++ e :: after -> e.kind = some "constructor" ->
      (forall later, later ∈ after -> later.kind ≠ some "constructor") ->
      LastConstructor otherwise es (e.inputs.getD [])
  | missing :
      (forall e, e ∈ es -> e.kind ≠ some "constructor") -> LastConstructor otherwise es otherwise

/-! ## Functions -/

namespace Interface

variable {interface : Interface} {name : String} {arity : Nat} {f : Function}

/-- The function that a call of `name` with `arity` arguments uses: the first of this name and
arity, or else the first of this name. -/
inductive Uses (interface : Interface) (name : String) (arity : Nat) (f : Function) : Prop where
  | ofArity :
      First (fun g => g.name = name ∧ g.inputs.length = arity) interface.functions f ->
      Uses interface name arity f
  | ofName :
      (forall g, g ∈ interface.functions -> ¬ (g.name = name ∧ g.inputs.length = arity)) ->
      First (fun g => g.name = name) interface.functions f ->
      Uses interface name arity f

theorem function_eq_error_iff {arity : Option Nat} :
    interface.function name arity = .error cause ↔
      cause = .unknownFunction name ∧ forall f, interface.function name arity ≠ .ok f := by
  refine eq_error_iff_of_only ?_
  unfold function
  cases interface.functions.find? fun g =>
      g.name = name && arity.all fun n => g.inputs.length = n with
  | none =>
      intro e h
      cases h
      rfl
  | some g => nofun

theorem function_some_eq_ok_iff :
    interface.function name (some arity) = .ok f ↔
      First (fun g => g.name = name ∧ g.inputs.length = arity) interface.functions f := by
  rw [function_eq_ok_iff, ← find?_eq_some_iff_first]
  simp only [Option.all_some, Bool.decide_and]

theorem function_none_eq_ok_iff_first :
    interface.function name none = .ok f ↔
      First (fun g => g.name = name) interface.functions f := by
  rw [function_eq_ok_iff, ← find?_eq_some_iff_first]
  simp only [Option.all_none, Bool.and_true]

theorem Uses.length_eq_iff (h : interface.Uses name arity f) :
    f.inputs.length = arity ↔
      ∃ g, g ∈ interface.functions ∧ g.name = name ∧ g.inputs.length = arity := by
  cases h with
  | ofArity hfirst => exact ⟨fun _ => ⟨f, hfirst.mem⟩, fun _ => hfirst.mem.2.2⟩
  | ofName hnone hfirst =>
      constructor
      · intro hlength
        exact absurd ⟨hfirst.mem.2, hlength⟩ (hnone f hfirst.mem.1)
      · rintro ⟨g, hmem, hg⟩
        exact absurd hg (hnone g hmem)

theorem Uses.name_eq (h : interface.Uses name arity f) : f.name = name := by
  cases h with
  | ofArity hfirst => exact hfirst.mem.2.1
  | ofName _ hfirst => exact hfirst.mem.2

theorem resolve_eq_ok_iff : interface.resolve name arity = .ok f ↔ interface.Uses name arity f := by
  unfold resolve
  cases harity : interface.function name (some arity) with
  | ok g =>
      have hg := function_some_eq_ok_iff.mp harity
      constructor
      · intro h
        cases h
        exact Uses.ofArity hg
      · intro h
        cases h with
        | ofArity hfirst => exact harity.symm.trans (function_some_eq_ok_iff.mpr hfirst)
        | ofName hnone _ => exact absurd hg.mem.2 (hnone g hg.mem.1)
  | error e =>
      have hnone : forall g, g ∈ interface.functions ->
          ¬ (g.name = name ∧ g.inputs.length = arity) := by
        intro g hmem hg
        have hexists : ∃ g, g ∈ interface.functions ∧ g.name = name ∧ g.inputs.length = arity :=
          ⟨g, hmem, hg⟩
        rcases exists_first_iff.mpr hexists with ⟨first, hfirst⟩
        cases harity.symm.trans (function_some_eq_ok_iff.mpr hfirst)
      constructor
      · intro h
        exact Uses.ofName hnone (function_none_eq_ok_iff_first.mp h)
      · intro h
        cases h with
        | ofArity hfirst => exact absurd hfirst.mem.2 (hnone f hfirst.mem.1)
        | ofName _ hfirst => exact function_none_eq_ok_iff_first.mpr hfirst

theorem exists_uses_iff :
    (∃ f, interface.Uses name arity f) ↔ ∃ g, g ∈ interface.functions ∧ g.name = name := by
  constructor
  · rintro ⟨f, hofArity | ⟨_, hfirst⟩⟩
    · exact ⟨f, hofArity.mem.1, hofArity.mem.2.1⟩
    · exact ⟨f, hfirst.mem⟩
  · intro hnamed
    by_cases harity : ∃ g, g ∈ interface.functions ∧ g.name = name ∧ g.inputs.length = arity
    · rcases exists_first_iff.mpr harity with ⟨f, hfirst⟩
      exact ⟨f, Uses.ofArity hfirst⟩
    · rcases exists_first_iff.mpr hnamed with ⟨f, hfirst⟩
      refine ⟨f, Uses.ofName ?_ hfirst⟩
      intro g hmem hg
      exact harity ⟨g, hmem, hg⟩

theorem resolve_eq_error_iff :
    interface.resolve name arity = .error cause ↔
      cause = .unknownFunction name ∧ forall g, g ∈ interface.functions -> g.name ≠ name := by
  have honly : forall e, interface.resolve name arity = .error e -> e = .unknownFunction name := by
    intro e h
    unfold resolve at h
    split at h
    · cases h
    · exact (function_eq_error_iff.mp h).1
  have hnone : (forall f, interface.resolve name arity ≠ .ok f) ↔
      forall g, g ∈ interface.functions -> g.name ≠ name := by
    have huses := not_congr (@exists_uses_iff interface name arity)
    simpa only [not_exists, not_and, ← resolve_eq_ok_iff] using huses
  rw [eq_error_iff_of_only honly, hnone]

/-! ## Descriptions -/

variable {start next : Interface} {e : Entry} {es : List Entry}

/-- An entry declares a function, replaces the inputs of the constructor, or changes nothing. -/
theorem add_eq_ok (h : start.add e = .ok next) :
    (e.isFunction = true ∧ e.kind ≠ some "constructor" ∧
        next = { start with functions := start.functions ++ [e.toFunction] }) ∨
      (e.isFunction = false ∧ e.kind = some "constructor" ∧
        next = { start with constructorInputs := e.inputs.getD [] }) ∨
      (e.isFunction = false ∧ e.kind ≠ some "constructor" ∧ next = start) := by
  have hconstructor : e.kind = some "constructor" ↔ e.kind.getD "function" = "constructor" := by
    cases e.kind with
    | none => decide
    | some kind => exact Option.some_inj
  rw [hconstructor, Ne, hconstructor, Entry.isFunction, decide_eq_true_eq, decide_eq_false_iff_not]
  unfold add at h
  by_cases hfunction : e.kind.getD "function" = "function"
  · rw [hfunction] at h ⊢
    by_cases hname : e.name.getD "" = ""
    · simp [hname] at h
    · simp only [if_neg hname, ↓reduceIte] at h
      cases h
      exact .inl ⟨rfl, by decide, rfl⟩
  · by_cases hkind : e.kind.getD "function" = "constructor"
    · rw [hkind] at h ⊢
      cases h
      exact .inr (.inl ⟨by decide, rfl, rfl⟩)
    · simp only [if_neg hfunction, if_neg hkind] at h
      cases h
      exact .inr (.inr ⟨hfunction, hkind, rfl⟩)

theorem functions_of_ofEntries (h : ofEntries start es = .ok next) :
    next.functions = start.functions ++ (es.filter Entry.isFunction).map Entry.toFunction := by
  induction es generalizing start with
  | nil =>
      cases h
      exact (List.append_nil _).symm
  | cons e es ih =>
      rcases ok_of_bind h with ⟨middle, hadd, hrest⟩
      rw [ih hrest]
      rcases add_eq_ok hadd with ⟨hfunction, _, rfl⟩ | ⟨hfunction, _, rfl⟩ | ⟨hfunction, _, rfl⟩
      · rw [List.filter_cons_of_pos hfunction, List.map_cons, List.append_assoc]
        rfl
      · rw [List.filter_cons_of_neg (ne_true_of_eq_false hfunction)]
      · rw [List.filter_cons_of_neg (ne_true_of_eq_false hfunction)]

theorem constructorInputs_of_ofEntries (h : ofEntries start es = .ok next) :
    LastConstructor start.constructorInputs es next.constructorInputs := by
  induction es generalizing start with
  | nil =>
      cases h
      exact LastConstructor.missing nofun
  | cons e es ih =>
      rcases ok_of_bind h with ⟨middle, hadd, hrest⟩
      have hlast := ih hrest
      -- The entry counts only where no constructor comes after it.
      generalize next.constructorInputs = inputs at hlast ⊢
      cases hlast with
      | @found before after last hsplit hkind hafter =>
          have hlater : e :: es = (e :: before) ++ last :: after := congrArg (e :: ·) hsplit
          exact LastConstructor.found hlater hkind hafter
      | missing hnone =>
          rcases add_eq_ok hadd with ⟨_, hkind, rfl⟩ | ⟨_, hkind, rfl⟩ | ⟨_, hkind, rfl⟩
          · exact LastConstructor.missing (List.forall_mem_cons.mpr ⟨hkind, hnone⟩)
          · have hhere : e :: es = [] ++ e :: es := rfl
            exact LastConstructor.found hhere hkind hnone
          · exact LastConstructor.missing (List.forall_mem_cons.mpr ⟨hkind, hnone⟩)

/-- An interface that is read holds the functions of its description in their order, and the
inputs of its last constructor. -/
theorem entries_of_ofJson {value : Json} (h : ofJson value = .ok interface) :
    ∃ es, entries value = .ok es ∧
      interface.functions = (es.filter Entry.isFunction).map Entry.toFunction ∧
      LastConstructor [] es interface.constructorInputs := by
  unfold ofJson at h
  split at h
  · rename_i es hentries
    exact ⟨es, hentries, functions_of_ofEntries h, constructorInputs_of_ofEntries h⟩
  · cases h

/-! ## Calls -/

theorem encodeCall_of_uses (h : interface.Uses name args.length f) :
    interface.encodeCall name args = f.encodeInput args := by
  rw [encodeCall, bind_of_ok (resolve_eq_ok_iff.mpr h)]

theorem not_refused_unknownFunction {function other : String} {params : List Param} :
    ¬ Refused function params args (.unknownFunction other) := by
  intro h
  cases h with
  | misfit _ _ hmisfit =>
      rcases hmisfit with ⟨_, _, _, _, _, hmisfits, _⟩
      cases hmisfits

theorem encodeCall_eq_unknownFunction_iff {other : String} :
    interface.encodeCall name args = .error (.unknownFunction other) ↔
      other = name ∧ forall g, g ∈ interface.functions -> g.name ≠ name := by
  constructor
  · intro h
    rcases error_of_bind h with hresolve | ⟨f, _, hencode⟩
    · rcases resolve_eq_error_iff.mp hresolve with ⟨hname, hnone⟩
      exact ⟨Error.unknownFunction.inj hname, hnone⟩
    · exact absurd (encodeInput_eq_error_iff.mp hencode) not_refused_unknownFunction
  · rintro ⟨rfl, hnone⟩
    exact bind_of_error (resolve_eq_error_iff.mpr ⟨rfl, hnone⟩) _

/-- A call is unknown where no function has its name.  Every other call uses a function of the
name, and takes the number of its parameters where any function of the name does.  It is refused
as its arguments are under the parameters; or its data are four bytes of the digest of the
function's signature and then the arguments.  The constructor takes its arguments in the same way
under the inputs of the last constructor of the description. -/
theorem calls_resolved (interface : Interface) (name : String) (args : List Token) :
    (forall other, interface.encodeCall name args = .error (.unknownFunction other) ↔
      other = name ∧ forall g, g ∈ interface.functions -> g.name ≠ name) ∧
    ((∃ f, interface.Uses name args.length f) ↔
      ∃ g, g ∈ interface.functions ∧ g.name = name) ∧
    (forall f, interface.Uses name args.length f ->
      (f.inputs.length = args.length ↔
        ∃ g, g ∈ interface.functions ∧ g.name = name ∧ g.inputs.length = args.length) ∧
      (forall cause, interface.encodeCall name args = .error cause ↔
        Refused name f.inputs args cause) ∧
      forall data, interface.encodeCall name args = .ok data ↔
        data.take 4 = (Hash.keccak (Text.encode f.signature)).bytes.take 4 ∧
          Carries f.inputs args (data.drop 4)) ∧
    (forall cause, interface.encodeConstructor args = .error cause ↔
      Refused "constructor" interface.constructorInputs args cause) ∧
    (forall data, interface.encodeConstructor args = .ok data ↔
      Carries interface.constructorInputs args data) ∧
    forall value, ofJson value = .ok interface ->
      ∃ es, entries value = .ok es ∧
        interface.functions = (es.filter Entry.isFunction).map Entry.toFunction ∧
        LastConstructor [] es interface.constructorInputs := by
  refine ⟨fun _ => encodeCall_eq_unknownFunction_iff, exists_uses_iff, ?_,
    fun _ => encodeArguments_eq_error_iff, fun _ => encodeArguments_eq_ok_iff,
    fun _ => entries_of_ofJson⟩
  intro f huses
  rw [encodeCall_of_uses huses]
  refine ⟨huses.length_eq_iff, ?_, fun _ => encodeInput_eq_ok_iff⟩
  intro cause
  rw [encodeInput_eq_error_iff, huses.name_eq]

/-- The number of the keys that are stored. -/
def countOfKeys : Function :=
  { name := "retrieveKey", inputs := [], outputs := [{ name := "", type := "uint256" }],
    readOnly := true }

def keyOfIdentifier : Function :=
  { name := "retrieveKey", inputs := [{ name := "id", type := "string" }],
    outputs := [{ name := "", type := "string" }], readOnly := true }

/-- A call of one argument passes over a function that takes none; a call of two is refused under
it. -/
theorem calls_resolved_overloaded :
    let interface : Interface :=
      { functions := [countOfKeys, keyOfIdentifier], constructorInputs := [] }
    interface.Uses "retrieveKey" 1 keyOfIdentifier ∧
      (∃ data, interface.encodeCall "retrieveKey" [.text "id"] = .ok data ∧
        Carries keyOfIdentifier.inputs [.text "id"] (data.drop 4)) ∧
      interface.Uses "retrieveKey" 2 countOfKeys ∧
      interface.encodeCall "retrieveKey" [.text "id", .bool true] =
        .error (.argumentCount "retrieveKey" 0 2) := by
  intro interface
  have hone : interface.Uses "retrieveKey" 1 keyOfIdentifier := by
    refine Uses.ofArity ⟨[countOfKeys], [], rfl, ⟨rfl, rfl⟩, ?_⟩
    intro g hmem hg
    cases List.mem_singleton.mp hmem
    cases hg.2
  have htwo : interface.Uses "retrieveKey" 2 countOfKeys := by
    refine Uses.ofName ?_ ⟨[], [keyOfIdentifier], rfl, rfl, nofun⟩
    intro g hmem hg
    rcases List.mem_pair.mp hmem with rfl | rfl
    · cases hg.2
    · cases hg.2
  have hdata : ∃ data, interface.encodeCall "retrieveKey" [.text "id"] = .ok data := ⟨_, rfl⟩
  rcases hdata with ⟨data, hencode⟩
  rcases calls_resolved interface "retrieveKey" [.text "id"] with ⟨_, _, hcalls, _⟩
  rcases hcalls keyOfIdentifier hone with ⟨_, _, hok⟩
  rcases calls_resolved interface "retrieveKey" [.text "id", .bool true] with ⟨_, _, hothers, _⟩
  rcases hothers countOfKeys htwo with ⟨_, herror, _⟩
  have htypes : Supported countOfKeys.inputs [] := rfl
  have hcount : countOfKeys.inputs.length ≠ [Token.text "id", .bool true].length := by decide
  exact ⟨hone, ⟨data, hencode, ((hok data).mp hencode).2⟩, htwo,
    (herror _).mpr (Refused.argumentCount htypes hcount)⟩

end Interface
end Abi
end KeyRegistry
