/-!
# Help

The text that explains the commands and their arguments.
-/

namespace Procurement

/-- What is shown to whoever asks for help or is not understood. -/
def helpText : String :=
  "\n".intercalate
    ["Tender and bid marketplace core",
      "",
      "Usage: tender-market [--config FILE] [--database URL] COMMAND",
      "",
      "Commands:",
      "  migrate                      make the tables of the database",
      "  stats                        count tenders, bids and users",
      "  decide --actor USER --bid ID --decision approve|reject",
      "  rollback tender|bid ID VERSION --actor USER",
      "  history tender|bid ID",
      "  reviews --requester USER --tender ID --author USER [--offset N] [--limit N]"]

end Procurement
