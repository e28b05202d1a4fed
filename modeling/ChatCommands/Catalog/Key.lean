/-!
# Template keys

The keys of the templates that the library itself renders, with the arguments that each takes.
-/

namespace ChatCommands.TemplateKey

/-- Unknown command, and a known one nearby. Argument: the key suggested. -/
def foundClosest := "command.response.found-closest"

/-- Unknown command with nothing nearby. Argument: the sigil. -/
def unknownCommand := "command.response.unknown"

/-- Title of the notice that arguments are missing. -/
def fewArgumentsTitle := "command.response.few-arguments.title"

/-- Title of the notice that there are too many arguments. -/
def manyArgumentsTitle := "command.response.many-arguments.title"

/-- Usage of a command with parameters. Arguments: sigil, key, pattern. -/
def incorrectArguments := "command.response.incorrect-arguments"

/-- Usage of a command without parameters. Arguments: sigil, key. -/
def incorrectArgumentsEmpty := "command.response.incorrect-arguments.empty"

/-- Title of help messages. -/
def helpTitle := "command.help.title"

/-- Help for a command with parameters. Arguments: sigil, key, pattern, description. -/
def helpUsage := "command.help.usage"

/-- Help for a command without parameters. Arguments: sigil, key, description. -/
def helpUsageEmpty := "command.help.usage.empty"

/-- What the two kinds of brackets mean. -/
def helpBrackets := "command.help.disclaimer.user"

/-- How to ask for help about one command. Argument: the sigil. -/
def helpMore := "command.help.disclaimer.help"

/-- Title of the notice that permissions are missing. -/
def permissionDeniedTitle := "message.error.permission-denied.title"

/-- Body of the notice that permissions are missing. Argument: their names as a list. -/
def permissionDeniedBody := "message.error.permission-denied.description"

/-- The key of a capability's name. -/
def permission (capability : String) : String :=
  "permission." ++ capability

end ChatCommands.TemplateKey
