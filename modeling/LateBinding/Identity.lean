/-!
# Identities

Scopes, classes, objects, proxies, providers, resolvers and cache entries are told apart by an
`Identity`, a number drawn once from a counter of the world.
-/

namespace LateBinding

/-- What tells things apart that may be equal in all their parts. -/
abbrev Identity := Nat

end LateBinding
