import ChatCommands.Catalog

/-!
# Bundled messages

The bundles that come with the library: English, which has every key, and Russian.
-/

namespace ChatCommands

/-- The English messages. -/
def Bundle.english : Bundle where
  locale := "en"
  messages := .ofList [
    ("command.response.found-closest", "Unknown command. Did you mean `\x7b0\x7d`?"),
    ("command.response.unknown", "Unknown command. Type `\x7b0\x7dhelp` for the list of commands."),
    ("command.response.few-arguments.title", "Too few arguments."),
    ("command.response.many-arguments.title", "Too many arguments."),
    ("command.response.incorrect-arguments", "Usage: `\x7b0\x7d\x7b1\x7d \x7b2\x7d`"),
    ("command.response.incorrect-arguments.empty", "Usage: `\x7b0\x7d\x7b1\x7d`"),
    ("command.help.title", "Help"),
    ("command.help.usage", "`\x7b0\x7d\x7b1\x7d \x7b2\x7d` - \x7b3\x7d"),
    ("command.help.usage.empty", "`\x7b0\x7d\x7b1\x7d` - \x7b2\x7d"),
    ("command.help.disclaimer.user", "<arg> is required, [arg] is optional."),
    ("command.help.disclaimer.help", "Type `\x7b0\x7d<command> help` for details about a command."),
    ("command.help.description", "Show the list of commands."),
    ("command.ping.description", "Check that the bot is alive."),
    ("command.ping.completed", "Pong!"),
    ("command.echo.description", "Repeat the given text."),
    ("command.purge.description", "Delete recent messages in this channel."),
    ("command.purge.incorrect-number", "`\x7b0\x7d` is not a valid message count."),
    ("command.purge.completed", "Deleted \x7b0\x7d messages."),
    ("command.purge.completed.reason", "Deleted \x7b0\x7d messages: \x7b1\x7d"),
    ("message.error.permission-denied.title", "Missing permissions"),
    ("message.error.permission-denied.description",
      "I need the following permissions to run this command:\n\x7b0\x7d"),
    ("permission.send_messages", "Send Messages"),
    ("permission.embed_links", "Embed Links"),
    ("permission.manage_messages", "Manage Messages"),
    ("permission.read_message_history", "Read Message History"),
    ("permission.moderate_members", "Moderate Members"),
    ("permission.ban_members", "Ban Members")]

/-- The Russian messages. Keys that are not here fall back to English. -/
def Bundle.russian : Bundle where
  locale := "ru"
  messages := .ofList [
    ("command.response.found-closest",
      "Неизвестная команда. Возможно, вы имели в виду `\x7b0\x7d`?"),
    ("command.response.unknown", "Неизвестная команда. Введите `\x7b0\x7dhelp` для списка команд."),
    ("command.response.few-arguments.title", "Слишком мало аргументов."),
    ("command.response.many-arguments.title", "Слишком много аргументов."),
    ("command.response.incorrect-arguments", "Использование: `\x7b0\x7d\x7b1\x7d \x7b2\x7d`"),
    ("command.response.incorrect-arguments.empty", "Использование: `\x7b0\x7d\x7b1\x7d`"),
    ("command.help.title", "Помощь"),
    ("command.help.disclaimer.user", "<arg> обязателен, [arg] необязателен."),
    ("command.ping.completed", "Понг!"),
    ("message.error.permission-denied.title", "Недостаточно прав"),
    ("message.error.permission-denied.description",
      "Для выполнения команды мне нужны следующие права:\n\x7b0\x7d"),
    ("permission.manage_messages", "Управлять сообщениями")]

/-- The catalog of the bundles that come with the library. -/
def Catalog.bundled : Catalog :=
  (Catalog.empty.insert .english).insert .russian

end ChatCommands
