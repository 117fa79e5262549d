import AuthStartpack.Data.Actions
import AuthStartpack.Services.Dependencies

/-!
Owns the removal of an entry from `HybridCache`: from the entries of the process
and, where Redis is enabled, from the second level that the processes share.
-/

namespace AuthStartpack

namespace Caches

def remove (process : ℕ) (key : String) (caches : Caches) : Caches :=
  { caches with
    inProcess := caches.inProcess.filter fun entry => !(entry.1 = process && entry.2.1 = key) }

def removeShared (key : String) (caches : Caches) : Caches :=
  { caches with shared := caches.shared.filter fun entry => entry.1 ≠ key }

end Caches

namespace HybridCache

def removeAsync (services : Services) (process : ℕ) (key : String) : Action Unit := do
  Action.updateCaches (·.remove process key)
  if services.redisEnabled then
    Action.updateCaches (·.removeShared key)

end HybridCache

end AuthStartpack
