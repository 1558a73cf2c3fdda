import OntologyStructs.CommandLine.Argument

namespace OntologyStructs.CommandLine

def usage : List Text :=
  [
    "usage: schemagen [-h] [-v] [-c CONFIG] [-i INPUT] [-o OUTPUT] [-p PACKAGE]",
    "                 [--dump-json DUMP_JSON] [--dump-node-link DUMP_NODE_LINK]",
    "                 [--strict-duplicates] [--exclude-superseded]",
    "                 [--keep-vocab-prefix] [--gofmt]"]

def description : List Text :=
  [
    "schemagen - generate Go structs from a JSON-LD ontology",
    "",
    "options:",
    "  -h, --help            show this help message and exit",
    "  -v, --verbose         Enable verbose logging",
    "  -c CONFIG, --config CONFIG",
    "                        Optional generator configuration. Can be a path to a",
    "                        TOML/JSON file or an inline TOML/JSON string. Command-",
    "                        line flags override it.",
    "  -i INPUT, --input INPUT",
    "                        Input JSON-LD file (default: schemaorg-current-",
    "                        https.jsonld)",
    "  -o OUTPUT, --output OUTPUT",
    "                        Output Go file (default: structschema.go)",
    "  -p PACKAGE, --package PACKAGE",
    "                        Go package name of the generated file (default:",
    "                        structschema)",
    "  --dump-json DUMP_JSON",
    "                        Also write the resolved graph as indented JSON to this",
    "                        path",
    "  --dump-node-link DUMP_NODE_LINK",
    "                        Also write the child graph in networkx node-link JSON",
    "                        to this path",
    "  --strict-duplicates   Fail when two graph nodes share the same @id",
    "  --exclude-superseded  Do not add superseded properties as fields of other",
    "                        types",
    "  --keep-vocab-prefix   Keep the 'Schema' vocabulary prefix in generated names",
    "  --gofmt               Run gofmt on the generated source when it is installed"]

def ofLines (ls : List Text) : Text := ls.flatMap fun line ↦ line ++ "\n"

def help : Text := ofLines (usage ++ [([] : Text)] ++ description)

def UsageError.report (e : UsageError) : Text :=
  ofLines (usage ++ [("schemagen: error: " ++ e.message : Text)])

end OntologyStructs.CommandLine
