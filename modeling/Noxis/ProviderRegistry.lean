import Noxis.ProviderBase

/-! The provider dictionary and the in-memory admin switches. -/
namespace Noxis

/-- `self.providers` is a dictionary: distinct names in insertion order, and the mutable
object stored under each. Routing decisions refer to a provider by its name. -/
structure ProviderRegistry where
  names : List String
  nodup : names.Nodup
  provider : String → Provider
  disabledOverrides : Finset String := ∅

namespace ProviderRegistry

def all (r : ProviderRegistry) : List String := r.names

def isAdminDisabled (r : ProviderRegistry) (name : String) : Bool :=
  decide (name ∈ r.disabledOverrides)

def enabled (r : ProviderRegistry) : List String :=
  r.names.filter (fun name => (r.provider name).config.enabled && !r.isAdminDisabled name)

/-- The returned flag is `false` for an unknown name. -/
def setEnabled (r : ProviderRegistry) (name : String) (enabled : Bool) :
    Bool × ProviderRegistry :=
  if name ∉ r.names then (false, r)
  else if enabled then (true, { r with disabledOverrides := r.disabledOverrides.erase name })
  else (true, { r with disabledOverrides := insert name r.disabledOverrides })

/-- In-place update of one provider object. -/
def modify (r : ProviderRegistry) (name : String) (f : Provider → Provider) : ProviderRegistry :=
  { r with provider := Function.update r.provider name (f (r.provider name)) }

@[simp] theorem modify_names (r : ProviderRegistry) (name : String) (f : Provider → Provider) :
    (r.modify name f).names = r.names := rfl

@[simp] theorem modify_disabledOverrides (r : ProviderRegistry) (name : String)
    (f : Provider → Provider) : (r.modify name f).disabledOverrides = r.disabledOverrides := rfl

@[simp] theorem modify_isAdminDisabled (r : ProviderRegistry) (name other : String)
    (f : Provider → Provider) :
    (r.modify name f).isAdminDisabled other = r.isAdminDisabled other := rfl

@[simp] theorem modify_provider_self (r : ProviderRegistry) (name : String)
    (f : Provider → Provider) : (r.modify name f).provider name = f (r.provider name) := by
  simp [modify]

theorem modify_provider_other (r : ProviderRegistry) {name other : String}
    (f : Provider → Provider) (h : other ≠ name) :
    (r.modify name f).provider other = r.provider other := by
  simp [modify, h]

@[simp] theorem setEnabled_names (r : ProviderRegistry) (name : String) (e : Bool) :
    (r.setEnabled name e).2.names = r.names := by
  unfold setEnabled
  split_ifs <;> rfl

@[simp] theorem setEnabled_provider (r : ProviderRegistry) (name : String) (e : Bool) :
    (r.setEnabled name e).2.provider = r.provider := by
  unfold setEnabled
  split_ifs <;> rfl

theorem enabled_sublist (r : ProviderRegistry) : r.enabled.Sublist r.names :=
  List.filter_sublist

theorem enabled_nodup (r : ProviderRegistry) : r.enabled.Nodup := r.nodup.filter _

end ProviderRegistry
end Noxis
