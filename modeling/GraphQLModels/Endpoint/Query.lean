/-!
# The introspection query

The query that asks a server for its schema. References are followed six types deep, enough for
lists of lists whose levels are all non-null.
-/

namespace GraphQLModels.Endpoint

def introspectionQuery : String :=
  "\n".intercalate [
    "fragment fragType on __Type \x7b",
    "  name",
    "  kind",
    "  ofType \x7b",
    "    name",
    "    kind",
    "    ofType \x7b",
    "      name",
    "      kind",
    "      ofType \x7b",
    "        name",
    "        kind",
    "        ofType \x7b",
    "          name",
    "          kind",
    "          ofType \x7b",
    "            name",
    "            kind",
    "          \x7d",
    "        \x7d",
    "      \x7d",
    "    \x7d",
    "  \x7d",
    "\x7d",
    "",
    "fragment fragField on __Field \x7b",
    "  name",
    "  description",
    "  isDeprecated",
    "  deprecationReason",
    "  type \x7b",
    "    ...fragType",
    "  \x7d",
    "\x7d",
    "",
    "query IntrospectionQuery \x7b",
    "  __schema \x7b",
    "    types \x7b",
    "      kind",
    "      name",
    "      description",
    "      fields(includeDeprecated: true) \x7b",
    "        ...fragField",
    "      \x7d",
    "      interfaces \x7b",
    "        ...fragType",
    "        fields(includeDeprecated: true) \x7b",
    "          ...fragField",
    "        \x7d",
    "      \x7d",
    "      possibleTypes \x7b",
    "        ...fragType",
    "        fields(includeDeprecated: true) \x7b",
    "          ...fragField",
    "        \x7d",
    "        interfaces \x7b",
    "          ...fragType",
    "        \x7d",
    "      \x7d",
    "      enumValues(includeDeprecated: true) \x7b",
    "        name",
    "        description",
    "        isDeprecated",
    "        deprecationReason",
    "      \x7d",
    "      ofType \x7b",
    "        ...fragType",
    "      \x7d",
    "    \x7d",
    "  \x7d",
    "\x7d"]

end GraphQLModels.Endpoint
