/-! Why a text is not a URL. -/

namespace KeyedCoding.Url

/-- Why a text is not a URL. -/
inductive Fault where
  | relative
  | emptyHost
  | badPort
  | badV4
  | badV6
  | badDomain
  | badHostChar
  deriving DecidableEq, Repr

namespace Fault

/-- The words for a fault. -/
def message : Fault → String
  | relative => "relative URL without a base"
  | emptyHost => "empty host"
  | badPort => "invalid port number"
  | badV4 => "invalid IPv4 address"
  | badV6 => "invalid IPv6 address"
  | badDomain => "invalid international domain name"
  | badHostChar => "invalid domain character"

end Fault

end KeyedCoding.Url
