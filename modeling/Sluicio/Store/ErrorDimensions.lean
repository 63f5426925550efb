import Sluicio.Store.Messages
import Sluicio.Store.Selection

/-!
# The breakdown of failing traces

`ErrorTracesByDimension` counts an integration's failing traces by what their failing spans
say: the type of the exception, the value of an attribute, or the span's name.  A trace is the
integration's when some span of it satisfies the matchers, and its failing spans count whether
or not they do.
-/

namespace Sluicio.Store

open Lib

variable {F : Type}

structure ErrorDimension where
  attributeKey : String := ""
  exception : Bool := false

/-- The grouping expression, `dim`. -/
def ErrorDimension.group (dim : ErrorDimension) (s : TraceSpan) : String :=
  if dim.exception then s.exceptionTypeExpr
  else if dim.attributeKey ≠ "" then
    -- `coalesce(nullIf(SpanAttributes[k], ''), ResourceAttributes[k])`
    if s.spanAttributes.value dim.attributeKey ≠ "" then s.spanAttributes.value dim.attributeKey
    else s.resourceAttributes.value dim.attributeKey
  else s.spanName

end Sluicio.Store
