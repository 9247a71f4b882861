import VocabPhp.Template

/-!
# Layouts of the generated files

The templates of the files: an interface, a trait and a model for each class. Each line of a layout
stands on a line of its own here, so that a layout reads as its file does.
-/

namespace VocabPhp.Layout

/-- The opening of every file, down to its PHP namespace. -/
def header : Template := [
  .text "<?php\n",
  .text "/**\n",
  .text " * SEOmatic plugin for Craft CMS\n",
  .text " *\n",
  .text " * A turnkey SEO implementation for Craft CMS that is comprehensive, powerful,\n",
  .text " * and flexible\n",
  .text " *\n",
  .text " * @link      https://nystudio107.com\n",
  .text " * @copyright Copyright (c) nystudio107\n",
  .text " */\n",
  .text "\n",
  .text "namespace ", .slot "namespace", .text ";\n"]

/-- The file of an interface, which has no members. -/
def interfaceFile : Template := [
  .slot "header", .text "\n",
  .text "/**\n",
  .text " * schema.org version: ", .slot "schemaVersion", .text "\n",
  .text " * Interface for ", .slot "schemaName", .text ".\n",
  .text " *\n",
  .text " * @author    nystudio107\n",
  .text " * @package   Seomatic\n",
  .text " * @see       ", .slot "schemaScope", .text "\n",
  .text " */\n",
  .text "interface ", .slot "schemaInterfaceName", .text "\n",
  .text "\x7b\n",
  .text "\x7d\n"]

/-- A field of a trait, with the blank line after it. -/
def field : Template := [
  .text "    /**\n",
  .text "     * ", .slot "propertyDescription", .text "\n",
  .text "     *\n",
  .text "     * @var ", .slot "propertyType", .text "\n",
  .text "     */\n",
  .text "    public $", .slot "propertyHandle", .text ";\n",
  .text "\n"]

/-- The file of a trait. -/
def traitFile : Template := [
  .slot "header", .text "\n",
  .text "/**\n",
  .text " * schema.org version: ", .slot "schemaVersion", .text "\n",
  .text " * Trait for ", .slot "schemaName", .text ".\n",
  .text " *\n",
  .text " * @author    nystudio107\n",
  .text " * @package   Seomatic\n",
  .text " * @see       ", .slot "schemaScope", .text "\n",
  .text " */\n",
  .text "trait ", .slot "schemaTraitName", .text "\n",
  .text "\x7b\n",
  .slot "schemaPropertiesAsFields", .text "\x7d\n"]

/-- The file of a model. -/
def modelFile : Template := [
  .slot "header", .text "\n",
  .text "use ", .slot "parentModel", .text ";\n",
  .text "\n",
  .text "/**\n",
  .text " * schema.org version: ", .slot "schemaVersion", .text "\n",
  .text " * ", .slot "schemaName", .text " - ", .slot "schemaDescription", .text "\n",
  .text " *\n",
  .text " * @author    nystudio107\n",
  .text " * @package   Seomatic\n",
  .text " * @see       ", .slot "schemaScope", .text "\n",
  .text " */\n",
  .text "class ",
  .slot "schemaClass",
  .text " extends ",
  .slot "parentModelName",
  .text " implements ",
  .slot "schemaInterfaces",
  .text "\n",
  .text "\x7b\n",
  .slot "schemaTraits", .text "\n",
  .text "    /**\n",
  .text "     * The Schema.org Type Name\n",
  .text "     *\n",
  .text "     * @var string\n",
  .text "     */\n",
  .text "    public static ",
  .slot "staticType",
  .text "$schemaTypeName = ",
  .slot "schemaTypeName",
  .text ";\n",
  .text "\n",
  .text "    /**\n",
  .text "     * The Schema.org Type Scope\n",
  .text "     *\n",
  .text "     * @var string\n",
  .text "     */\n",
  .text "    public static ",
  .slot "staticType",
  .text "$schemaTypeScope = ",
  .slot "schemaTypeScope",
  .text ";\n",
  .text "\n",
  .text "    /**\n",
  .text "     * The Schema.org Type Extends\n",
  .text "     *\n",
  .text "     * @var string\n",
  .text "     */\n",
  .text "    public static ",
  .slot "staticType",
  .text "$schemaTypeExtends = ",
  .slot "schemaTypeExtends",
  .text ";\n",
  .text "\n",
  .text "    /**\n",
  .text "     * The Schema.org Type Description\n",
  .text "     *\n",
  .text "     * @var string\n",
  .text "     */\n",
  .text "    public static ",
  .slot "staticType",
  .text "$schemaTypeDescription = ",
  .slot "schemaTypeDescription",
  .text ";\n",
  .text "\n",
  .text "    /**\n",
  .text "     * @inheritdoc\n",
  .text "     */\n",
  .text "    public function getSchemaPropertyNames(): array\n",
  .text "    \x7b\n",
  .text "        return ", .slot "schemaPropertyNames", .text ";\n",
  .text "    \x7d\n",
  .text "\n",
  .text "    /**\n",
  .text "     * @inheritdoc\n",
  .text "     */\n",
  .text "    public function getSchemaPropertyExpectedTypes(): array\n",
  .text "    \x7b\n",
  .text "        return ", .slot "schemaPropertyExpectedTypes", .text ";\n",
  .text "    \x7d\n",
  .text "\n",
  .text "    /**\n",
  .text "     * @inheritdoc\n",
  .text "     */\n",
  .text "    public function getSchemaPropertyDescriptions(): array\n",
  .text "    \x7b\n",
  .text "        return ", .slot "schemaPropertyDescriptions", .text ";\n",
  .text "    \x7d\n",
  .text "\n",
  .text "    /**\n",
  .text "     * @inheritdoc\n",
  .text "     */\n",
  .text "    public function getGoogleRequiredSchema(): array\n",
  .text "    \x7b\n",
  .text "        return ", .slot "googleRequiredSchema", .text ";\n",
  .text "    \x7d\n",
  .text "\n",
  .text "    /**\n",
  .text "     * @inheritdoc\n",
  .text "     */\n",
  .text "    public function getGoogleRecommendedSchema(): array\n",
  .text "    \x7b\n",
  .text "        return ", .slot "googleRecommendedSchema", .text ";\n",
  .text "    \x7d\n",
  .text "\n",
  .text "    /**\n",
  .text "     * @inheritdoc\n",
  .text "     */\n",
  .text "    public function defineRules(): array\n",
  .text "    \x7b\n",
  .text "        $rules = parent::defineRules();\n",
  .text "        $rules = array_merge($rules, [\n",
  .text "            [$this->getSchemaPropertyNames(), 'validateJsonSchema'],\n",
  .text "            [$this->getGoogleRequiredSchema(), 'required', 'on' => ['google'], ",
  .text "'message' => 'This property is required by Google.'],\n",
  .text "            [$this->getGoogleRecommendedSchema(), 'required', 'on' => ['google'], ",
  .text "'message' => 'This property is recommended by Google.']\n",
  .text "        ]);\n",
  .text "\n",
  .text "        return $rules;\n",
  .text "    \x7d\n",
  .text "\x7d\n"]

end VocabPhp.Layout
