import OperationChain.Extension.Loader
import OperationChain.Proofs.Except
import OperationChain.Proofs.History
import OperationChain.Proofs.Ordered.Map

/-! # What is registered

A registry holds, under every shape and name, what the last registration of them compiled that
succeeded, by the loader that stood under its tag when it was made. Other calls do not matter
for it: neither those that fail, nor those under other names or shapes, nor loaders that come
later.
-/

namespace OperationChain.Registry

/-! ## Calls -/

/-- A call on a registry. -/
inductive Call where
  | addLoader (tag : String) (loader : Loader)
  | register (shape : Shape) (name tag source : String)
  | lookup (shape : Shape) (name : String)

/-- What a call on a registry answers. -/
inductive Reply where
  | added
  | registered (replaced : Bool)
  | found (capability : Capability)

/-- Makes a call: its answer, and the registry after it. -/
def perform (registry : Registry) : Call → Except Error Reply × Registry
  | .addLoader tag loader => (.ok .added, registry.addLoader tag loader)
  | .register shape name tag source =>
    match registry.register shape name tag source with
    | .ok (replaced, after) => (.ok (.registered replaced), after)
    | .error error => (.error error, registry)
  | .lookup shape name => ((registry.find shape name).map .found, registry)

/-- The registry after calls. -/
def performed (registry : Registry) (calls : List Call) : Registry :=
  calls.foldl (fun registry call => (registry.perform call).2) registry

theorem performed_concat (registry : Registry) (calls : List Call) (call : Call) :
    registry.performed (calls ++ [call]) = ((registry.performed calls).perform call).2 :=
  List.foldl_concat ..

/-! ## Compiling -/

section Compile

variable {registry after : Registry} {shape : Shape} {name tag source : String}
  {capability : Capability} {replaced : Bool} {error : Error}

theorem compile_eq_ok_iff : registry.compile shape name tag source = .ok capability ↔
    ∃ loader, registry.loaders.find? tag = some loader ∧ loader source shape = .ok capability ∧
      capability.shape = shape := by
  rw [compile]
  cases registry.loaders.find? tag with
  | none => simp
  | some loader =>
      dsimp only
      cases hsource : loader source shape with
      | error error => simp [hsource]
      | ok found =>
          dsimp only
          split
          next hshape =>
            constructor
            · rintro ⟨⟩
              exact ⟨loader, rfl, hsource, hshape⟩
            · rintro ⟨_, ⟨⟩, hfound, _⟩
              exact hsource.symm.trans hfound
          next hother =>
            refine iff_of_false (by rintro ⟨⟩) ?_
            rintro ⟨_, ⟨⟩, hfound, hshape⟩
            rw [hsource] at hfound
            cases hfound
            exact hother hshape

theorem compile_shape (hcompile : registry.compile shape name tag source = .ok capability) :
    capability.shape = shape := by
  obtain ⟨_, _, _, hshape⟩ := compile_eq_ok_iff.mp hcompile
  exact hshape

theorem register_eq_ok_iff : registry.register shape name tag source = .ok (replaced, after) ↔
    ∃ capability, registry.compile shape name tag source = .ok capability ∧
      registry.kept.contains ⟨shape, name⟩ = replaced ∧
      { registry with kept := registry.kept.insert ⟨shape, name⟩ capability } = after := by
  rw [register]
  cases registry.compile shape name tag source with
  | error error => simp
  | ok capability => simp

theorem register_eq_error_iff : registry.register shape name tag source = .error error ↔
    registry.compile shape name tag source = .error error := by
  rw [register]
  cases registry.compile shape name tag source with
  | error error => simp
  | ok capability => simp

end Compile

/-! ## One call -/

/-- The call is a registration of this shape and name that compiles to the capability. -/
def Compiles (registry : Registry) (shape : Shape) (name : String) (call : Call)
    (capability : Capability) : Prop :=
  ∃ tag source, call = .register shape name tag source ∧
    registry.compile shape name tag source = .ok capability

section Calls

variable {registry : Registry} {shape : Shape} {name : String} {call : Call}
  {capability : Capability}

theorem find?_perform_of_compiles (hcompiles : registry.Compiles shape name call capability) :
    (registry.perform call).2.kept.find? ⟨shape, name⟩ = some capability := by
  obtain ⟨tag, source, rfl, hcompile⟩ := hcompiles
  rw [perform, register_eq_ok_iff.mpr ⟨capability, hcompile, rfl, rfl⟩]
  exact Map.find?_insert_self

/-- What a registration of a shape and a name does not compile to stays under them as it is. -/
theorem find?_perform_of_not (hnot : ∀ capability, ¬ registry.Compiles shape name call capability) :
    (registry.perform call).2.kept.find? ⟨shape, name⟩ = registry.kept.find? ⟨shape, name⟩ := by
  cases call with
  | addLoader tag loader => rfl
  | lookup asked wanted => rfl
  | register other given tag source =>
      rw [perform]
      split
      next replaced after hregister =>
        obtain ⟨capability, hcompile, -, rfl⟩ := register_eq_ok_iff.mp hregister
        refine Map.find?_insert_of_ne ?_
        rintro ⟨⟩
        exact hnot capability ⟨tag, source, rfl, hcompile⟩
      next => rfl

theorem Compiles.unique {other : Capability}
    (hcompiles : registry.Compiles shape name call capability)
    (hother : registry.Compiles shape name call other) : capability = other := by
  obtain ⟨_, _, rfl, hcapability⟩ := hcompiles
  obtain ⟨_, _, ⟨⟩, hfound⟩ := hother
  exact Except.ok.inj (hcapability.symm.trans hfound)

/-- A call takes the place of what stands under a shape and a name, or leaves it there. -/
theorem find?_perform_iff :
    (registry.perform call).2.kept.find? ⟨shape, name⟩ = some capability ↔
      registry.Compiles shape name call capability ∨
        registry.kept.find? ⟨shape, name⟩ = some capability ∧
          ∀ other, ¬ registry.Compiles shape name call other := by
  by_cases hcompiles : ∃ found, registry.Compiles shape name call found
  · obtain ⟨found, hfound⟩ := hcompiles
    rw [find?_perform_of_compiles hfound, Option.some.injEq]
    constructor
    · rintro rfl
      exact .inl hfound
    · rintro (hcapability | ⟨-, hnone⟩)
      · exact hfound.unique hcapability
      · exact absurd hfound (hnone found)
  · rw [not_exists] at hcompiles
    rw [find?_perform_of_not hcompiles, or_iff_right (hcompiles capability), and_iff_left hcompiles]

theorem find?_loaders_perform {tag : String} {loader : Loader} :
    (registry.perform call).2.loaders.find? tag = some loader ↔
      call = .addLoader tag loader ∨
        registry.loaders.find? tag = some loader ∧ ∀ other, call ≠ .addLoader tag other := by
  cases call with
  | addLoader given added =>
      rw [perform, addLoader]
      by_cases hsame : given = tag
      · subst hsame
        simp [Map.find?_insert_self]
      · simp [Map.find?_insert_of_ne (Ne.symm hsame), hsame]
  | lookup asked wanted => simp [perform]
  | register other given wanted source =>
      rw [perform]
      split
      next replaced after hregister =>
        obtain ⟨_, _, _, rfl⟩ := register_eq_ok_iff.mp hregister
        simp
      next => simp

theorem find_eq_ok_iff : registry.find shape name = .ok capability ↔
    registry.kept.find? ⟨shape, name⟩ = some capability := by
  rw [find]
  split
  next found hfound => rw [hfound, Except.ok.injEq, Option.some.injEq]
  next hnone =>
    rw [hnone]
    constructor <;> rintro ⟨⟩

theorem find_perform_of_not (hnot : ∀ capability, ¬ registry.Compiles shape name call capability) :
    (registry.perform call).2.find shape name = registry.find shape name := by
  rw [find, find, find?_perform_of_not hnot]

/-- A call that is refused leaves the registry as it is. -/
theorem perform_of_error {error : Error} (herror : (registry.perform call).1 = .error error) :
    (registry.perform call).2 = registry := by
  cases call with
  | addLoader tag loader => cases herror
  | lookup asked wanted => rfl
  | register other given tag source =>
      rw [perform] at herror ⊢
      split at herror
      next => cases herror
      next => rfl

theorem find_eq_error (hnone : ∀ capability, registry.find shape name ≠ .ok capability) :
    registry.find shape name = .error (.extension (.unregistered shape name)) := by
  unfold find at hnone ⊢
  split at hnone
  next found _ => exact absurd rfl (hnone found)
  next => rfl

end Calls

/-! ## Sequences of calls -/

/-- The loader stands under the tag after the calls: it is the last one that was added under it,
or the one that stood there from the start if none was. -/
def Stands (start : Registry) (calls : List Call) (tag : String) (loader : Loader) : Prop :=
  Latest (fun _ call added => call = .addLoader tag added) calls loader ∨
    (∀ other, .addLoader tag other ∉ calls) ∧ start.loaders.find? tag = some loader

/-- After the earlier calls, the call registers the shape and the name, and succeeds: the loader
that stands under its tag makes this capability of its source, of the right shape. -/
def Registers (start : Registry) (shape : Shape) (name : String) (earlier : List Call) (call : Call)
    (capability : Capability) : Prop :=
  ∃ tag source loader, call = .register shape name tag source ∧ start.Stands earlier tag loader ∧
    loader source shape = .ok capability ∧ capability.shape = shape

/-- Some registration of the shape and the name succeeded. -/
def WasRegistered (start : Registry) (calls : List Call) (shape : Shape) (name : String) : Prop :=
  ∃ earlier call later, calls = earlier ++ call :: later ∧
    ∃ capability, start.Registers shape name earlier call capability

/-- Why a registration fails after calls. -/
inductive Refuses (start : Registry) (calls : List Call) (shape : Shape)
    (name tag source : String) : Error → Prop
  | unknownTag (hnone : ∀ loader, ¬ start.Stands calls tag loader) :
    Refuses start calls shape name tag source (.extension (.unknownLoader tag))
  | source {loader : Loader} {error : Error} (hstands : start.Stands calls tag loader)
    (herror : loader source shape = .error error) :
    Refuses start calls shape name tag source (error.withinExtension name)
  | shape {loader : Loader} {capability : Capability} (hstands : start.Stands calls tag loader)
    (hcapability : loader source shape = .ok capability) (hother : capability.shape ≠ shape) :
    Refuses start calls shape name tag source
      (.extension (.loaderShape tag capability.shape shape name))

section Histories

variable {start : Registry} {calls : List Call} {call : Call} {shape : Shape}
  {name tag source : String} {capability : Capability} {loader : Loader}

theorem find?_loaders_performed :
    (start.performed calls).loaders.find? tag = some loader ↔ start.Stands calls tag loader := by
  induction calls using List.reverseRecOn generalizing loader with
  | nil => simp [performed, Stands, not_latest_nil]
  | append_singleton calls call ih =>
      rw [performed_concat, find?_loaders_perform, ih, Stands, Stands, latest_concat, or_assoc,
        or_and_right, and_assoc]
      refine or_congr_right (or_congr_right ?_)
      simp only [List.mem_append, List.mem_singleton, not_or, forall_and, eq_comm, and_left_comm]
      exact and_comm

theorem registers_iff : start.Registers shape name calls call capability ↔
    (start.performed calls).Compiles shape name call capability := by
  simp only [Registers, Compiles, compile_eq_ok_iff, find?_loaders_performed]
  constructor
  · rintro ⟨tag, source, loader, hcall, hstands⟩
    exact ⟨tag, source, hcall, loader, hstands⟩
  · rintro ⟨tag, source, hcall, loader, hstands⟩
    exact ⟨tag, source, loader, hcall, hstands⟩

/-- What stands under a shape and a name is what the last registration of them compiled. -/
theorem find?_kept_performed (hempty : start.kept.find? ⟨shape, name⟩ = none) :
    (start.performed calls).kept.find? ⟨shape, name⟩ = some capability ↔
      Latest (start.Registers shape name) calls capability := by
  induction calls using List.reverseRecOn generalizing capability with
  | nil => simp [performed, hempty, not_latest_nil]
  | append_singleton calls call ih =>
      simp only [performed_concat, find?_perform_iff, ih, latest_concat, registers_iff]

theorem refuses_iff {error : Error} :
    (start.performed calls).compile shape name tag source = .error error ↔
      start.Refuses calls shape name tag source error := by
  constructor
  · intro hcompile
    unfold compile at hcompile
    split at hcompile
    next hnone =>
      cases hcompile
      refine .unknownTag fun loader hstands => ?_
      rw [← find?_loaders_performed, hnone] at hstands
      cases hstands
    next loader hloader =>
      have hstands := find?_loaders_performed.mp hloader
      split at hcompile
      next cause hcause =>
        cases hcompile
        exact .source hstands hcause
      next capability hcapability =>
        split at hcompile
        next => cases hcompile
        next hother =>
          cases hcompile
          exact .shape hstands hcapability hother
  · rintro (hnone | ⟨hstands, hcause⟩ | ⟨hstands, hcapability, hother⟩)
    · have hmissing : (start.performed calls).loaders.find? tag = none :=
        Option.eq_none_iff_forall_ne_some.mpr fun loader hloader =>
          hnone loader (find?_loaders_performed.mp hloader)
      rw [compile, hmissing]
    · rw [compile, find?_loaders_performed.mpr hstands]
      simp only [hcause]
    · rw [compile, find?_loaders_performed.mpr hstands]
      simp only [hcapability, if_neg hother]

theorem contains_kept_performed (hempty : start.kept.find? ⟨shape, name⟩ = none) :
    (start.performed calls).kept.contains ⟨shape, name⟩ = true ↔
      start.WasRegistered calls shape name := by
  rw [Map.contains, Option.isSome_iff_exists, WasRegistered, ← exists_latest_iff]
  exact exists_congr fun capability => find?_kept_performed hempty

/-- A registration that succeeds tells whether there was one before. -/
theorem perform_register_ok_iff {replaced : Bool}
    (hempty : start.kept.find? ⟨shape, name⟩ = none) :
    ((start.performed calls).perform (.register shape name tag source)).1 =
        .ok (.registered replaced) ↔
      (∃ capability,
        start.Registers shape name calls (.register shape name tag source) capability) ∧
        (replaced = true ↔ start.WasRegistered calls shape name) := by
  rw [← contains_kept_performed hempty, perform]
  simp only [registers_iff]
  constructor
  · split
    next found after hregister =>
      obtain ⟨capability, hcompile, rfl, rfl⟩ := register_eq_ok_iff.mp hregister
      rintro ⟨⟩
      exact ⟨⟨capability, tag, source, rfl, hcompile⟩, Iff.rfl⟩
    next => rintro ⟨⟩
  · rintro ⟨⟨capability, _, _, ⟨⟩, hcompile⟩, hreplaced⟩
    rw [register_eq_ok_iff.mpr ⟨capability, hcompile, rfl, rfl⟩]
    simp only [Bool.eq_iff_iff.mpr hreplaced]

theorem perform_register_error_iff {error : Error} :
    ((start.performed calls).perform (.register shape name tag source)).1 = .error error ↔
      start.Refuses calls shape name tag source error := by
  rw [← refuses_iff, ← register_eq_error_iff, perform]
  cases (start.performed calls).register shape name tag source with
  | ok pair => simp
  | error found => simp

end Histories

/-! ## Lookups by shape -/

/-- Every capability is kept under its own shape. -/
def Shaped (registry : Registry) : Prop :=
  ∀ shape name capability, registry.find shape name = .ok capability → capability.shape = shape

namespace Shaped

variable {registry : Registry}

theorem performed {start : Registry} (hempty : ∀ key, start.kept.find? key = none)
    (calls : List Call) : (start.performed calls).Shaped := by
  intro shape name capability hcapability
  rw [find_eq_ok_iff, find?_kept_performed (hempty _)] at hcapability
  obtain ⟨_, _, _, _, ⟨_, _, _, _, _, _, hshape⟩, _⟩ := hcapability
  exact hshape

/-- A lookup that takes up every capability of its shape finds what is kept. -/
theorem map_bind_find {α : Type} (hshaped : registry.Shaped) {shape : Shape} {name : String}
    {wrap : α → Capability} {pick : Capability → Except Error α}
    (hpick : ∀ capability, capability.shape = shape → (pick capability).map wrap = .ok capability) :
    (registry.find shape name >>= pick).map wrap = registry.find shape name := by
  cases hfind : registry.find shape name with
  | error error => rfl
  | ok capability => exact hpick capability (hshaped shape name capability hfind)

theorem lookups (hshaped : registry.Shaped) (name : String) :
    (registry.filter name).map .filter = registry.find .filter name ∧
      (registry.processor name).map .processor = registry.find .processor name ∧
      (registry.multiProcessor name).map .multiProcessor = registry.find .multiProcessor name ∧
      (registry.serviceProcess name).map .serviceProcess = registry.find .serviceProcess name := by
  refine ⟨hshaped.map_bind_find ?_, hshaped.map_bind_find ?_, hshaped.map_bind_find ?_,
    hshaped.map_bind_find ?_⟩
  all_goals
    intro capability hshape
    cases capability <;> first | rfl | cases hshape

end Shaped

/-- Nothing is misplaced where a lookup finds what is kept. -/
theorem ne_misplaced {α : Type} {registry : Registry} {shape : Shape} {name : String}
    {result : Except Error α} {wrap : α → Capability}
    (hresult : result.map wrap = registry.find shape name) (found : Capability) :
    result ≠ .error (misplaced name found) := by
  rintro rfl
  unfold find at hresult
  split at hresult <;> cases hresult

/-- Whatever calls were made on a new registry: what is found under a shape and a name is what
the last registration of them that succeeded compiled, by the loader that stood under its tag
then, and the lookup is refused if there was none. A registration succeeds if the loader under
its tag makes a capability of the right shape of its source, and tells whether one of the same
shape and name had succeeded before; otherwise it is refused. A call that is refused leaves the
registry as it is, and a call leaves what is found under all shapes and names that it does not
register. There are as many capabilities as shapes and names were registered, each under its own
shape, so that the lookups by shape find what is kept and nothing is ever misplaced. -/
theorem found_of_performed (calls : List Call) :
    let registry := standard.performed calls
    (∀ shape name capability, registry.find shape name = .ok capability ↔
        Latest (standard.Registers shape name) calls capability) ∧
      (∀ shape name, ¬ standard.WasRegistered calls shape name →
        registry.find shape name = .error (.extension (.unregistered shape name))) ∧
      (∀ shape name tag source replaced,
        (registry.perform (.register shape name tag source)).1 = .ok (.registered replaced) ↔
          (∃ capability,
            standard.Registers shape name calls (.register shape name tag source) capability) ∧
          (replaced = true ↔ standard.WasRegistered calls shape name)) ∧
      (∀ shape name tag source error,
        (registry.perform (.register shape name tag source)).1 = .error error ↔
          standard.Refuses calls shape name tag source error) ∧
      (∀ call error, (registry.perform call).1 = .error error →
        (registry.perform call).2 = registry) ∧
      (∀ call shape name, (∀ tag source, call ≠ .register shape name tag source) →
        (registry.perform call).2.find shape name = registry.find shape name) ∧
      (∃ pairs : List CapabilityKey, pairs.Nodup ∧ registry.size = pairs.length ∧
        ∀ shape name, ⟨shape, name⟩ ∈ pairs ↔ standard.WasRegistered calls shape name) ∧
      (∀ shape name capability, registry.kept.find? ⟨shape, name⟩ = some capability →
        capability.shape = shape) ∧
      ∀ name,
        ((registry.filter name).map .filter = registry.find .filter name ∧
          (registry.processor name).map .processor = registry.find .processor name ∧
          (registry.multiProcessor name).map .multiProcessor =
            registry.find .multiProcessor name ∧
          (registry.serviceProcess name).map .serviceProcess =
            registry.find .serviceProcess name) ∧
        ∀ found,
          registry.filter name ≠ .error (misplaced name found) ∧
            registry.processor name ≠ .error (misplaced name found) ∧
            registry.multiProcessor name ≠ .error (misplaced name found) ∧
            registry.serviceProcess name ≠ .error (misplaced name found) := by
  intro registry
  have hempty (key : CapabilityKey) : standard.kept.find? key = none := rfl
  have hfind (shape : Shape) (name : String) (capability : Capability) :
      registry.find shape name = .ok capability ↔
        Latest (standard.Registers shape name) calls capability :=
    find_eq_ok_iff.trans (find?_kept_performed (hempty _))
  have hshaped : registry.Shaped := .performed hempty calls
  refine ⟨hfind, ?_, ?_, ?_, ?_, ?_, ?_, ?_, ?_⟩
  · intro shape name hnever
    refine find_eq_error fun capability hcapability => hnever ?_
    exact exists_latest_iff.mp ⟨capability, (hfind shape name capability).mp hcapability⟩
  · exact fun shape name tag source replaced => perform_register_ok_iff (hempty _)
  · exact fun shape name tag source error => perform_register_error_iff
  · exact fun call error => perform_of_error
  · intro call shape name hother
    refine find_perform_of_not fun capability hcompiles => ?_
    obtain ⟨tag, source, hcall, -⟩ := hcompiles
    exact hother tag source hcall
  · refine ⟨registry.kept.keys, registry.kept.nodup_keys, (List.length_map _).symm, ?_⟩
    intro shape name
    rw [Map.mem_keys_iff]
    exact contains_kept_performed (hempty _)
  · intro shape name capability hkept
    exact hshaped shape name capability (find_eq_ok_iff.mpr hkept)
  · intro name
    obtain ⟨hfilter, hprocessor, hcombiner, hprocess⟩ := hshaped.lookups name
    exact ⟨hshaped.lookups name, fun found => ⟨ne_misplaced hfilter found,
      ne_misplaced hprocessor found, ne_misplaced hcombiner found, ne_misplaced hprocess found⟩⟩

end OperationChain.Registry
