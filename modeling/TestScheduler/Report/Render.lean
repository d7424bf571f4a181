import TestScheduler.Json.Printer
import TestScheduler.Report.Csv
import TestScheduler.Report.Format
import TestScheduler.Report.Outline
import TestScheduler.Report.Table
import TestScheduler.Result.Document

/-! # Rendering reports -/

namespace TestScheduler

namespace Report

def toJson (r : Report) : Json :=
  .object [("result", r.result.toJson), ("summary", r.summary.toJson),
    ("work_items", r.workItems), ("cancelled", r.cancelled)]

def summaryLine (r : Report) : String :=
  let root := r.result.value
  root.verdict.status.symbol ++ " " ++ root.fullName ++ ": " ++ toString r.summary.passed ++ "/" ++
    toString r.summary.total ++ " passed (" ++ r.summary.passRate ++ "%) in " ++
    toString r.summary.totalDurationMs ++ "ms"

/-- The text of a report. Only tables and outlines use colours. -/
def render (r : Report) (format : ReportFormat) (isColoured : Bool) : String :=
  match format with
  | .table => r.table isColoured
  | .tree => r.result.outline isColoured
  | .json => r.toJson.compact
  | .jsonPretty => r.toJson.pretty
  | .csv => r.result.toCsv
  | .summary => r.summaryLine

end Report

end TestScheduler
