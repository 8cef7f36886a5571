import ContextKit.Registry.InfoBackend

/-!
# `ContextPropertyInfo`: the cached answers for one key

A property info asks the backend when it is made and keeps the answers.  It asks again when the
backend emits `keyChanged` with its key.  Whether the key is deprecated is not kept.
-/

namespace ContextRegistry

structure ContextPropertyInfo where
  keyName : String
  cachedTypeInfo : Data
  cachedDoc : String
  cachedDeclared : Bool
  cachedProviders : List ContextProviderInfo

namespace ContextPropertyInfo

/-- The caches filled from the backend. -/
def updated (backend : InfoBackend) (keyName : String) : ContextPropertyInfo where
  keyName := keyName
  cachedTypeInfo := backend.typeInfoForKey keyName
  cachedDoc := backend.docForKey keyName
  cachedDeclared := backend.keyDeclared keyName
  cachedProviders := backend.providersForKey keyName

/-- The constructor, which does not ask about the empty key. -/
def create (backend : InfoBackend) (key : String) : ContextPropertyInfo :=
  if key ≠ "" then updated backend key
  else
    { keyName := key
      cachedTypeInfo := .invalid
      cachedDoc := ""
      cachedDeclared := false
      cachedProviders := [] }

def deprecated (backend : InfoBackend) (info : ContextPropertyInfo) : Bool :=
  backend.keyDeprecated info.keyName

def onKeyChanged (backend : InfoBackend) (key : String) (info : ContextPropertyInfo) :
    ContextPropertyInfo :=
  if key ≠ info.keyName then info else updated backend info.keyName

variable (backend : InfoBackend)

theorem keyName_create (key : String) : (create backend key).keyName = key := by
  unfold create
  split_ifs <;> rfl

theorem create_of_ne {key : String} (h : key ≠ "") : create backend key = updated backend key :=
  if_pos h

@[simp] theorem onKeyChanged_self (info : ContextPropertyInfo) :
    onKeyChanged backend info.keyName info = updated backend info.keyName := by
  simp [onKeyChanged]

theorem onKeyChanged_of_ne {key : String} {info : ContextPropertyInfo} (h : key ≠ info.keyName) :
    onKeyChanged backend key info = info := if_pos h

/-- **A list of emissions** fills the caches anew if the key is among them. -/
theorem foldl_onKeyChanged (keys : List String) (info : ContextPropertyInfo) :
    keys.foldl (fun info key => onKeyChanged backend key info) info =
      if info.keyName ∈ keys then updated backend info.keyName else info := by
  induction keys generalizing info with
  | nil => rfl
  | cons key keys ih =>
    rw [List.foldl_cons, ih]
    by_cases hkey : key = info.keyName
    · subst hkey
      rw [onKeyChanged_self, if_pos List.mem_cons_self]
      show (if info.keyName ∈ keys then updated backend info.keyName else _) = _
      rw [ite_self]
    · rw [onKeyChanged_of_ne backend hkey]
      simp [Ne.symm hkey]

end ContextPropertyInfo

end ContextRegistry
